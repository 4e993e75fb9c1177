import StaticReflection.Proofs.Locating.Rules
import StaticReflection.Proofs.Folding.Outcome

/-!
# The class map

The files under the mapped paths are scanned one after the other, and the class map takes the
keys of the class-likes in each that it does not have yet.

> `AutoloadRules.index_scanned`: if all that is scanned are files, there is a class map, and it
> has each key with the first scanned file that declares a class-like with the key.

The files in it are listed once each. `AutoloadRules.Indexes` is what scanning one more file
preserves: of the listed files the first with a key is the one that the map has for it, and no
two of them declare the same keys, so that no file is read twice, by whatever path.
-/

namespace StaticReflection

open Folding

/-! ## Lists without repetitions -/

section

variable {α : Type}

theorem find?_eraseDups [BEq α] [LawfulBEq α] (q : α → Bool) (xs : List α) :
    xs.eraseDups.find? q = xs.find? q := by
  match xs with
  | [] => rfl
  | a :: rest =>
    have hshorter := List.length_filter_le (fun b => !b == a) rest
    rw [List.eraseDups_cons, List.find?_cons, List.find?_cons]
    cases ha : q a with
    | true => rfl
    | false =>
      -- what is taken away is not looked for
      have hother (b : α) (hb : q b = true) : (!b == a) = true := by
        rw [Bool.not_eq_true', beq_eq_false_iff_ne]
        rintro rfl
        rw [ha] at hb
        cases hb
      simp only
      rw [find?_eraseDups q (rest.filter fun b => !b == a), List.find?_filter]
      refine congrArg (List.find? · rest) (funext fun b => ?_)
      rw [Bool.eq_iff_iff, decide_eq_true_eq]
      exact ⟨fun h => h.2, fun h => ⟨hother b h, h⟩⟩
termination_by xs.length
decreasing_by
  rw [List.length_cons]
  omega

theorem nodup_eraseDups [BEq α] [LawfulBEq α] (xs : List α) : xs.eraseDups.Nodup := by
  match xs with
  | [] => exact List.nodup_nil
  | a :: rest =>
    have hshorter := List.length_filter_le (fun b => !b == a) rest
    rw [List.eraseDups_cons, List.nodup_cons]
    refine ⟨fun ha => ?_, nodup_eraseDups _⟩
    have hkept := (List.mem_filter.mp (List.mem_eraseDups.mp ha)).2
    rw [beq_self_eq_true] at hkept
    cases hkept
termination_by xs.length
decreasing_by
  rw [List.length_cons]
  omega

/-- The first elements with two properties are one if each has both. -/
theorem eq_of_find?_eq_some {xs : List α} {f g : α → Bool} {a b : α} (ha : xs.find? f = some a)
    (hb : xs.find? g = some b) (hfb : f b = true) (hga : g a = true) : a = b := by
  induction xs with
  | nil => cases ha
  | cons x rest ih =>
    rw [List.find?_cons] at ha hb
    cases hf : f x with
    | true =>
      rw [hf] at ha
      obtain rfl := Option.some.inj ha
      rw [hga] at hb
      exact Option.some.inj hb
    | false =>
      cases hg : g x with
      | true =>
        rw [hg] at hb
        obtain rfl := Option.some.inj hb
        rw [hfb] at hf
        cases hf
      | false =>
        rw [hf] at ha
        rw [hg] at hb
        exact ih ha hb

end

/-! ## The files that are scanned -/

theorem Path.before_go_iff (as bs : List String) : before.go as bs = true ↔ as < bs := by
  induction as, bs using before.go.induct with
  | case1 as =>
    rw [before.go]
    exact iff_of_false Bool.false_ne_true (List.not_lt_nil as)
  | case2 b bs => exact iff_of_true rfl (List.nil_lt_cons b bs)
  | case3 as b bs ih =>
    rw [before.go, if_pos rfl, ih, List.cons_lt_cons_iff]
    exact ⟨fun h => .inr ⟨rfl, h⟩, fun h => h.elim (absurd · (String.lt_irrefl b)) And.right⟩
  | case4 a as b bs hne =>
    rw [before.go, if_neg hne, decide_eq_true_eq, List.cons_lt_cons_iff]
    exact ⟨.inl, fun h => h.elim id fun h => absurd h.1 hne⟩

theorem Path.not_before_iff (p q : Path) :
    (!q.before p) = true ↔ ¬before.rootParts q < before.rootParts p := by
  rw [Bool.not_eq_true', ← Bool.not_eq_true]
  exact not_congr (before_go_iff _ _)

namespace FileTree

variable {t : FileTree} {p : Path}

/-- The text of a file, and nothing for what is none. -/
def textAt (t : FileTree) (p : Path) : String := (t.text p).toOption.getD ""

theorem text_of_isFile (h : t.isFile p = true) : t.text p = .ok (t.textAt p) := by
  unfold isFile at h
  unfold textAt text bytes
  split at h
  next hfind =>
    rw [hfind]
    rfl
  next => cases h

theorem fetch_file (h : t.isFile p = true) (identifier : Option String) :
    t.fetch identifier (.file p) = .ok ⟨t.textAt p, p.toText, identifier⟩ := by
  unfold fetch
  simp only
  rw [text_of_isFile h]

end FileTree

namespace AutoloadRules

/-- The files that are scanned for a class map of some mapped paths. -/
def scanned (t : FileTree) (root : Path) (entries : List String) : List Path :=
  entries.flatMap fun e => filesUnder t (root.join (Path.ofString e))

/-- The files under a mapped path are scanned in the order of their paths. -/
theorem filesUnder_ordered (t : FileTree) (path : Path) :
    (filesUnder t path).Pairwise fun p q => q.before p = false := by
  have hordered (ps : List Path) :
      (ps.mergeSort fun p q => !q.before p).Pairwise fun p q => q.before p = false := by
    refine (List.pairwise_mergeSort ?_ ?_ ps).imp fun h => (Bool.not_eq_true' _).mp h
    · intro p q r
      rw [Path.not_before_iff, Path.not_before_iff, Path.not_before_iff, List.not_lt, List.not_lt,
        List.not_lt]
      exact List.le_trans
    · intro p q
      rw [Bool.or_eq_true, Path.not_before_iff, Path.not_before_iff, List.not_lt, List.not_lt]
      exact List.le_total ..
  unfold filesUnder FileTree.phpPaths
  split
  · exact List.pairwise_singleton ..
  · split
    · exact List.Pairwise.nil
    · exact hordered _

/-- The source of the file at a path. -/
def sourceAt (t : FileTree) (trees : GivenTrees) (p : Path) : ParsedSource :=
  trees.parse (t.textAt p) p.toText

/-- Whether the file at a path declares a class-like with a key. -/
def declaresKey (t : FileTree) (trees : GivenTrees) (key : String) (p : Path) : Bool :=
  (ClassLike.all (sourceAt t trees p)).any fun c => c.key == key

/-- What a file declares depends on its text only. -/
theorem declaresKey_congr {t : FileTree} {p q : Path} (trees : GivenTrees)
    (h : t.textAt p = t.textAt q) (key : String) :
    declaresKey t trees key p = declaresKey t trees key q := by
  show (ClassLike.all (trees.parse (t.textAt p) q.toText)).any _ = _
  rw [h]
  rfl

/-! ## One file -/

section

variable {index : ClassIndex} {p : Path}

theorem lookup_addClass (index : ClassIndex) (key : String) (p : Path) (k : String) :
    (addClass index key p).lookup k
      = (index.lookup k).or (if key = k then some p else none) := by
  unfold addClass
  split
  next hkept =>
    split
    next hk =>
      obtain ⟨q, hq⟩ := Option.isSome_iff_exists.mp hkept
      rw [← hk, hq, Option.some_or]
    next => rw [Option.or_none]
  next =>
    rw [List.lookup_append, List.lookup_cons, List.lookup_nil]
    by_cases hk : key = k
    · rw [if_pos hk, hk, beq_self_eq_true]
    · rw [if_neg hk, beq_false_of_ne (Ne.symm hk)]

theorem lookup_addClasses (index : ClassIndex) (source : ParsedSource) (p : Path) (k : String) :
    (addClasses index source p).lookup k = (index.lookup k).or
      (if (ClassLike.all source).any (fun c => c.key == k) then some p else none) := by
  unfold addClasses
  generalize ClassLike.all source = cs
  induction cs generalizing index with
  | nil => exact Option.or_none.symm
  | cons c cs ih =>
    rw [List.foldl_cons, ih, lookup_addClass, Option.or_assoc, List.any_cons]
    refine congrArg _ ?_
    by_cases hk : c.key = k
    · rw [if_pos hk, beq_iff_eq.mpr hk, Option.some_or, Bool.true_or, if_pos rfl]
    · rw [if_neg hk, beq_false_of_ne hk, Option.none_or, Bool.false_or]

/-- What a file adds to a class map. -/
theorem exists_added (index : ClassIndex) (source : ParsedSource) (p : Path) :
    ∃ more, addClasses index source p = index ++ more ∧ ∀ e ∈ more,
      e.2 = p ∧ index.lookup e.1 = none
        ∧ (ClassLike.all source).any (fun c => c.key == e.1) = true := by
  unfold addClasses
  generalize ClassLike.all source = cs
  induction cs generalizing index with
  | nil => exact ⟨[], (List.append_nil _).symm, fun e he => by cases he⟩
  | cons c cs ih =>
    obtain ⟨more, hmore, hadded⟩ := ih (addClass index c.key p)
    have hlater (e : String × Path) (he : e ∈ more) : e.2 = p ∧ index.lookup e.1 = none
        ∧ (c :: cs).any (fun d => d.key == e.1) = true := by
      obtain ⟨hpath, hnew, hdeclared⟩ := hadded e he
      rw [lookup_addClass, Option.or_eq_none_iff] at hnew
      rw [List.any_cons, hdeclared, Bool.or_true]
      exact ⟨hpath, hnew.1, rfl⟩
    rw [List.foldl_cons, hmore]
    unfold addClass
    split
    next => exact ⟨more, rfl, hlater⟩
    next hnew =>
      rw [Bool.not_eq_true, Option.isSome_eq_false_iff, Option.isNone_iff_eq_none] at hnew
      refine ⟨(c.key, p) :: more, by rw [List.append_assoc, List.singleton_append], fun e he => ?_⟩
      rcases List.mem_cons.mp he with rfl | he
      · rw [List.any_cons, beq_self_eq_true, Bool.true_or]
        exact ⟨rfl, hnew, rfl⟩
      · exact hlater e he

end

/-! ## All files -/

/-- The files of a class map, each once. -/
def filesOf (index : ClassIndex) : List Path := (index.map (·.2)).eraseDups

/-- A class map of some files that were scanned, by what each declares. -/
structure Indexes (declares : String → Path → Bool) (scanned : List Path) (index : ClassIndex) :
    Prop where
  first : ∀ key, index.lookup key = scanned.find? (declares key)
  once : ∀ key p, (key, p) ∈ index → index.lookup key = some p
  listed : ∀ key, (index.map (·.2)).find? (declares key) = index.lookup key

namespace Indexes

variable {declares : String → Path → Bool} {scanned : List Path} {index : ClassIndex}

theorem nil : Indexes declares [] [] := ⟨fun _ => rfl, fun _ _ => nofun, fun _ => rfl⟩

/-- One more file is scanned. -/
theorem addClasses (h : Indexes declares scanned index) {source : ParsedSource} {p : Path}
    (hp : ∀ key, declares key p = (ClassLike.all source).any fun c => c.key == key) :
    Indexes declares (scanned ++ [p]) (AutoloadRules.addClasses index source p) := by
  have hlookup (key : String) := lookup_addClasses index source p key
  simp only [← hp] at hlookup
  obtain ⟨more, hmore, hadded⟩ := exists_added index source p
  constructor
  · intro key
    rw [hlookup, h.first, List.find?_append, List.find?_singleton]
  · intro key q hq
    rw [hlookup]
    rw [hmore] at hq
    rcases List.mem_append.mp hq with hq | hq
    · rw [h.once key q hq, Option.some_or]
    · obtain ⟨rfl, hnew, hdeclared⟩ := hadded _ hq
      rw [hnew, hp, if_pos hdeclared, Option.none_or]
  · intro key
    have hpaths : more.map (·.2) = List.replicate more.length p := by
      rw [List.eq_replicate_iff]
      refine ⟨List.length_map .., fun q hq => ?_⟩
      obtain ⟨e, he, rfl⟩ := List.mem_map.mp hq
      exact (hadded e he).1
    have hall := hlookup key
    rw [hmore] at hall ⊢
    rw [hall, List.map_append, List.find?_append, h.listed, hpaths, List.find?_replicate]
    cases hkept : index.lookup key with
    | some q => rw [Option.some_or, Option.some_or]
    | none =>
      rw [Option.none_or, Option.none_or]
      split
      next hlength =>
        -- nothing was added, so there was nothing new to add
        rw [List.length_eq_zero_iff.mp hlength, List.append_nil, hkept, Option.none_or] at hall
        exact hall
      next => rfl

/-- Of the files of a class map the first that declares a key is the one it has for the key. -/
theorem find?_filesOf (h : Indexes declares scanned index) (key : String) :
    (filesOf index).find? (declares key) = scanned.find? (declares key) := by
  unfold filesOf
  rw [find?_eraseDups, h.listed, h.first]

theorem mem_filesOf_iff (h : Indexes declares scanned index) (p : Path) :
    p ∈ filesOf index ↔ ∃ key, scanned.find? (declares key) = some p := by
  unfold filesOf
  rw [List.mem_eraseDups, List.mem_map]
  constructor
  · rintro ⟨⟨key, q⟩, hq, rfl⟩
    exact ⟨key, (h.first key).symm.trans (h.once key q hq)⟩
  · rintro ⟨key, hp⟩
    obtain ⟨before, later, rfl, _⟩ := List.lookup_eq_some_iff.mp ((h.first key).trans hp)
    exact ⟨(key, p), List.mem_append_right _ (List.mem_cons_self ..), rfl⟩

/-- No two files of a class map declare the same keys. -/
theorem filesOf_apart (h : Indexes declares scanned index) :
    (filesOf index).Pairwise fun p q => ∃ key, declares key p ≠ declares key q := by
  refine (nodup_eraseDups _).imp_of_mem fun {p q} hp hq hne => ?_
  obtain ⟨key, hfirst⟩ := (h.mem_filesOf_iff p).mp hp
  obtain ⟨key', hfirst'⟩ := (h.mem_filesOf_iff q).mp hq
  refine Classical.byContradiction fun hsame => hne ?_
  have hkeys (k : String) : declares k p = declares k q :=
    Classical.not_not.mp fun hk => hsame ⟨k, hk⟩
  refine eq_of_find?_eq_some hfirst hfirst' ?_ ?_
  · rw [← hkeys]
    exact List.find?_some hfirst
  · rw [hkeys]
    exact List.find?_some hfirst'

end Indexes

section

variable {t : FileTree} {trees : GivenTrees} {done : List Path} {index : ClassIndex}

theorem addFiles_indexes {paths : List Path} (hpaths : ∀ p ∈ paths, t.isFile p = true)
    (h : Indexes (declaresKey t trees) done index) (messages : List String) :
    ∃ index', outcome (addFiles t trees index paths) messages = .ok index'
      ∧ Indexes (declaresKey t trees) (done ++ paths) index' := by
  induction paths generalizing done index messages with
  | nil => exact ⟨index, rfl, by rwa [List.append_nil]⟩
  | cons p rest ih =>
    have hfetched : outcome (ExceptT.mk (pure (t.fetch none (.file p))) :
        Warned LocatedSource) messages = .ok ⟨t.textAt p, p.toText, none⟩ :=
      FileTree.fetch_file (hpaths p (List.mem_cons_self ..)) none
    have hmore : Indexes (declaresKey t trees) (done ++ [p])
        (addClasses index (sourceAt t trees p) p) := h.addClasses fun key => rfl
    obtain ⟨index', hindex, hdone⟩ :=
      ih (fun q hq => hpaths q (List.mem_cons_of_mem _ hq)) hmore
        (messages ++ (sourceAt t trees p).warnings)
    rw [List.append_assoc, List.singleton_append] at hdone
    refine ⟨index', ?_, hdone⟩
    rw [addFiles, outcome_bind_ok hfetched]
    exact hindex

theorem addEntries_indexes (r : AutoloadRules) {entries : List String}
    (hfiles : ∀ p ∈ scanned t r.root entries, t.isFile p = true)
    (h : Indexes (declaresKey t trees) done index) (messages : List String) :
    ∃ index', outcome (r.addEntries t trees index (entries.map Json.ofString)) messages = .ok index'
      ∧ Indexes (declaresKey t trees) (done ++ scanned t r.root entries) index' := by
  induction entries generalizing done index messages with
  | nil => exact ⟨index, rfl, by rwa [scanned, List.flatMap_nil, List.append_nil]⟩
  | cons e rest ih =>
    have hscanned : scanned t r.root (e :: rest)
        = filesUnder t (r.root.join (Path.ofString e)) ++ scanned t r.root rest :=
      List.flatMap_cons ..
    rw [hscanned] at hfiles ⊢
    have hpath : outcome (ExceptT.mk (pure (r.pathOf (Json.ofString e))) : Warned Path) messages
        = .ok (r.root.join (Path.ofString e)) := pathOf_text e
    obtain ⟨index', hhere, hdone⟩ :=
      addFiles_indexes (fun p hp => hfiles p (List.mem_append_left _ hp)) h messages
    obtain ⟨index'', hrest, hall⟩ :=
      ih (fun p hp => hfiles p (List.mem_append_right _ hp)) hdone
        (after (addFiles t trees index (filesUnder t (r.root.join (Path.ofString e)))) messages)
    rw [List.append_assoc] at hall
    refine ⟨index'', ?_, hall⟩
    rw [List.map_cons, addEntries, outcome_bind_ok hpath]
    show outcome (addFiles t trees index _ >>= _) messages = _
    rw [outcome_bind_ok hhere]
    exact hrest

/-- If all that is scanned are files, the class map has each key with the first scanned file
that declares a class-like with it. -/
theorem index_scanned (root : Path) (newer older : List TextRule) {entries : List String}
    (hfiles : ∀ p ∈ scanned t root entries, t.isFile p = true) :
    ∃ index, outcome ((ofTexts root newer older entries).index t trees) [] = .ok index
      ∧ Indexes (declaresKey t trees) (scanned t root entries) index :=
  addEntries_indexes (ofTexts root newer older entries) hfiles .nil []

/-- A key of the class map is not looked for by the rules. -/
theorem find_of_lookup (r : AutoloadRules) {index : ClassIndex} {identifier : String} {p : Path}
    (h : index.lookup (Identifier.normalize identifier) = some p) :
    r.find t index identifier = .ok (some p) := by
  unfold find
  rw [h]

end

end AutoloadRules

end StaticReflection
