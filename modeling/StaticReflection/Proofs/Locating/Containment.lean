import StaticReflection.Proofs.Locating.LongestRule

/-!
# Files below the directories of rules

The path that a rule makes of an identifier is joined to the directories of the rule. It stays
below them unless it has a root of its own, which makes it stand for itself, or steps upwards.

> `AutoloadRules.found_below`: a file that is found lies below a directory of a rule that is
> for the identifier, unless the path of the identifier steps out. And it can: once a rule has a
> directory, every file with the extension of PHP files has an identifier that leads to it,
> wherever it is.

A file that a path leads to is the one at its place (`FileTree.lookup_of_isFile`), and the place
of a path that does not step out is below that of the path it is joined to (`place_join`).
-/

namespace StaticReflection

/-! ## Lower case around an edge -/

namespace LetterCase

theorem meetsCased_before_edge {c : Char} (h : isEdge c = true) (cs rest : List Char) :
    meetsCased (cs ++ c :: rest) = meetsCased cs := by
  induction cs with
  | nil => exact meetsCased_edge h rest
  | cons d cs ih => rw [List.cons_append, meetsCased, meetsCased, ih]

/-- What follows an edge makes no difference to the lower case of what is before it. -/
theorem lowerFrom_before_edge {c : Char} (h : isEdge c = true) {before : List Char}
    (cs rest : List Char) :
    lowerFrom before (cs ++ c :: rest)
      = lowerFrom before cs ++ lowerFrom (cs.reverse ++ before) (c :: rest) := by
  induction cs generalizing before with
  | nil => rfl
  | cons d cs ih =>
    rw [List.cons_append, lowerFrom_cons, lowerFrom_cons, meetsCased_before_edge h, ih,
      List.append_assoc, List.reverse_cons, List.append_assoc]
    rfl

end LetterCase

/-! ## Paths read from texts -/

namespace Path

/-- A path that does not stay below what it is joined to, or may not. -/
def StepsOut (p : Path) : Prop := p.root ≠ "" ∨ ".." ∈ p.parts

/-- The pieces of a text have its characters, but for the slashes. -/
theorem flatten_pieces (cs : List Char) : (pieces cs).flatten = cs.filter (· != '/') := by
  induction cs with
  | nil => rfl
  | cons c rest ih =>
    rw [pieces]
    by_cases hc : c = '/'
    · rw [if_pos hc, List.flatten_cons, List.nil_append, ih, hc]
      rfl
    · rw [if_neg hc, List.filter_cons_of_pos (p := (· != '/')) (bne_iff_ne.mpr hc), ← ih]
      cases pieces rest <;> rfl

/-- A text with a letter that is neither a slash nor a dot is the text of a path with parts. -/
theorem parts_ofString_ne_nil {s : String} {c : Char} (hc : c ∈ s.toList) (hslash : c ≠ '/')
    (hdot : c ≠ '.') : (ofString s).parts ≠ [] := by
  intro h
  have hpieces : ∀ p ∈ pieces s.toList, c ∉ p := by
    intro p hp hmem
    have hkept : p ∈ (pieces s.toList).filter fun p => !p.isEmpty && p != ['.'] := by
      refine List.mem_filter.mpr ⟨hp, ?_⟩
      rw [Bool.and_eq_true, Bool.not_eq_true', List.isEmpty_eq_false_iff, bne_iff_ne]
      refine ⟨List.ne_nil_of_mem hmem, ?_⟩
      rintro rfl
      exact hdot (List.mem_singleton.mp hmem)
    rw [List.map_eq_nil_iff.mp h] at hkept
    cases hkept
  have hmem : c ∈ (pieces s.toList).flatten := by
    rw [flatten_pieces]
    exact List.mem_filter.mpr ⟨hc, bne_iff_ne.mpr hslash⟩
  obtain ⟨p, hp, hcp⟩ := List.mem_flatten.mp hmem
  exact hpieces p hp hcp

theorem root_ofString_ne {s : String} (h : s.toList.head? = some '/') : (ofString s).root ≠ "" := by
  show rootOf s.toList ≠ ""
  unfold rootOf
  split
  · decide
  · decide
  · decide
  next hother =>
    cases hs : s.toList with
    | nil => rw [hs] at h; cases h
    | cons c rest =>
      rw [hs] at h
      obtain rfl : c = '/' := Option.some.inj h
      exact absurd hs (hother rest)

/-- The text of a path begins with a slash if that of a part of it does. -/
theorem root_ofString_append_ne {s : String} (h : s.toList.head? = some '/') (more : String) :
    (ofString (s ++ more)).root ≠ "" := by
  refine root_ofString_ne ?_
  rw [String.toList_append, List.head?_append, h]
  rfl

theorem join_of_root {p q : Path} (h : q.root ≠ "") : p.join q = q := by
  have hempty : q.root.isEmpty = false := by
    rw [← Bool.not_eq_true, String.isEmpty_iff]
    exact h
  unfold join
  rw [hempty]
  rfl

end Path

/-! ## Places -/

namespace FileTree

variable {t : FileTree}

/-- A path leads to a file, which lies below a directory. -/
def HasBelow (t : FileTree) (directory p : Path) : Prop :=
  ∃ below bytes, below ≠ [] ∧ t.place p = t.place directory ++ below
    ∧ t.files.lookup (t.place p) = some bytes

theorem placeOf_append (p : Place) (cs ds : List String) :
    placeOf p (cs ++ ds) = placeOf (placeOf p cs) ds := by
  induction cs generalizing p with
  | nil => rfl
  | cons c rest ih =>
    rw [List.cons_append, placeOf, placeOf]
    split
    · exact ih _
    · exact ih _

/-- Components that do not lead upwards lead further down. -/
theorem placeOf_eq (p : Place) {cs : List String} (h : ".." ∉ cs) : placeOf p cs = p ++ cs := by
  induction cs generalizing p with
  | nil => exact (List.append_nil p).symm
  | cons c rest ih =>
    have hc : c ≠ ".." := fun he => h (he ▸ List.mem_cons_self ..)
    rw [placeOf, if_neg hc, ih _ fun hrest => h (List.mem_cons_of_mem _ hrest), List.append_assoc]
    rfl

/-- The file that components lead to is the one at their place. -/
theorem lookup_of_follow {p : Place} {cs : List String} {bytes : List UInt8}
    (h : t.follow p cs = .ok (.file bytes)) : t.files.lookup (placeOf p cs) = some bytes := by
  induction cs generalizing p with
  | nil =>
    unfold follow entry at h
    split at h
    next found hfound =>
      cases h
      exact hfound
    next => split at h <;> cases h
  | cons c rest ih =>
    unfold follow at h
    rw [placeOf]
    split at h
    · split at h
      next hc =>
        rw [if_pos hc]
        exact ih h
      next hc =>
        rw [if_neg hc]
        exact ih h
    · split at h <;> cases h

theorem lookup_of_isFile {p : Path} (h : t.isFile p = true) :
    ∃ bytes, t.files.lookup (t.place p) = some bytes := by
  unfold isFile at h
  split at h
  next bytes hfound => exact ⟨bytes, lookup_of_follow hfound⟩
  next => cases h

/-- The place of a path that does not step out, below that of the path it is joined to. -/
theorem place_join {p q : Path} (h : ¬q.StepsOut) :
    t.place (p.join q) = t.place p ++ q.parts := by
  unfold Path.StepsOut at h
  rw [not_or, Ne, Decidable.not_not] at h
  have hjoin : p.join q = ⟨p.root, p.parts ++ q.parts⟩ := by
    unfold Path.join
    rw [h.1]
    rfl
  rw [hjoin]
  show placeOf _ (p.parts ++ q.parts) = _
  rw [placeOf_append, placeOf_eq _ h.2]
  rfl

end FileTree

/-! ## What rules find -/

namespace AutoloadRules

section

variable {root p : Path} {t : FileTree} {identifier : String} {relative : String → Path}
  {rules : List TextRule}

theorem parts_psr4Path (beginning identifier : String) :
    (psr4Path beginning identifier).parts ≠ [] := by
  refine Path.parts_ofString_ne_nil (c := 'p') ?_ (by decide) (by decide)
  rw [String.toList_append]
  exact List.mem_append_right _ (by decide)

theorem parts_psr0Path (identifier : String) : (psr0Path identifier).parts ≠ [] := by
  have hfile (s : String) : 'p' ∈ (s ++ ".php").toList := by
    rw [String.toList_append]
    exact List.mem_append_right _ (by decide)
  unfold psr0Path
  simp only
  split
  · exact Path.parts_ofString_ne_nil (hfile _) (by decide) (by decide)
  · refine Path.parts_ofString_ne_nil (c := 'p') ?_ (by decide) (by decide)
    rw [String.toList_append]
    exact List.mem_append_right _ (hfile _)

/-- A file that rules find is below a directory of one of them, unless the path steps out. -/
theorem below_of_findSome? (hparts : ∀ b, (relative b).parts ≠ [])
    (h : rules.findSome? (fileOf root t identifier relative) = some p) :
    ∃ rule ∈ rules, applies rule.1 identifier = true
      ∧ ∃ d ∈ rule.2, (relative rule.1).StepsOut ∨ t.HasBelow (root.join (Path.ofString d)) p := by
  obtain ⟨rule, hrule, hfile⟩ := List.exists_of_findSome?_eq_some h
  obtain ⟨happlies, hisFile, d, hd, rfl⟩ := of_fileOf hfile
  refine ⟨rule, hrule, happlies, d, hd, ?_⟩
  by_cases hsteps : (relative rule.1).StepsOut
  · exact .inl hsteps
  · obtain ⟨bytes, hbytes⟩ := FileTree.lookup_of_isFile hisFile
    exact .inr ⟨_, bytes, hparts rule.1, FileTree.place_join hsteps, hbytes⟩

/-- A path with a root is what a rule leads to, whatever its directories are. -/
theorem fileOf_root {rule : TextRule} (happlies : applies rule.1 identifier = true)
    (hd : rule.2 ≠ []) (hp : relative rule.1 = p) (hroot : p.root ≠ "")
    (hfile : t.isFile p = true) :
    fileOf root t identifier relative rule = some p := by
  obtain ⟨b, ds⟩ := rule
  unfold fileOf
  rw [if_pos happlies, hp]
  cases ds with
  | nil => exact absurd rfl hd
  | cons d rest =>
    unfold candidates
    rw [List.map_cons, Path.join_of_root hroot, List.find?_cons, hfile]

end

/-! ## Identifiers that lead anywhere -/

/-- Replacing a character that a text does not have, and back. -/
theorem replaceChar_replaceChar {old new : Char} {s : String} (h : new ∉ s.toList) :
    replaceChar new old (replaceChar old new s) = s := by
  unfold replaceChar
  rw [← String.toList_inj, String.toList_map, String.toList_map, List.map_map]
  refine (List.map_congr_left fun c hc => ?_).trans (List.map_id _)
  have hne : c ≠ new := fun he => h (he ▸ hc)
  show (if (if c = old then new else c) = new then old else if c = old then new else c) = c
  by_cases hold : c = old
  · rw [if_pos hold, if_pos rfl, hold]
  · rw [if_neg hold, if_neg hne]

theorem head?_replaceChar {old : Char} (new : Char) {s : String} (h : s.toList.head? = some old) :
    ∃ rest, (replaceChar old new s).toList = new :: rest := by
  unfold replaceChar
  rw [String.toList_map]
  cases hs : s.toList with
  | nil => rw [hs] at h; cases h
  | cons c rest =>
    rw [hs] at h
    obtain rfl : c = old := Option.some.inj h
    exact ⟨_, by rw [List.map_cons, if_pos rfl]⟩

/-- A rule is for an identifier that continues it with a backslash. -/
theorem applies_append (beginning : String) {s : String} {rest : List Char}
    (h : s.toList = '\\' :: rest) : applies beginning (beginning ++ s) = true := by
  refine String.startsWith_string_iff.mpr ?_
  unfold LetterCase.lower
  rw [String.toList_append, h, String.toList_ofList, String.toList_ofList,
    LetterCase.lowerFrom_before_edge rfl]
  exact List.prefix_append ..

theorem psr4Path_append (beginning : String) (s : String) :
    psr4Path beginning (beginning ++ s) = Path.ofString (replaceChar '\\' '/' s ++ ".php") := by
  unfold psr4Path
  rw [String.toList_append, ← String.length_toList, List.drop_left, String.ofList_toList]

/-- An identifier without backslashes is the path of its file but for the underscores. -/
theorem psr0Path_eq {identifier : String} (h : '\\' ∉ identifier.toList) :
    psr0Path identifier = Path.ofString (replaceChar '_' '/' identifier ++ ".php") := by
  have hsegment : Identifier.lastSegment identifier = identifier := by
    have hall : (identifier.toList.reverse ++ []).takeWhile (· != '\\')
        = identifier.toList.reverse ++ [].takeWhile (· != '\\') :=
      List.takeWhile_append_of_pos fun c hc =>
        bne_iff_ne.mpr fun he => h (he ▸ List.mem_reverse.mp hc)
    rw [List.append_nil, List.takeWhile_nil, List.append_nil] at hall
    unfold Identifier.lastSegment
    rw [hall, List.reverse_reverse, String.ofList_toList]
  unfold psr0Path
  simp only [hsegment]
  rw [Nat.sub_self, Nat.zero_sub, List.take_zero]
  rfl

section

variable {t : FileTree} {stem : String} {rules : List TextRule}

/-- The longest of the rules that have directories. -/
theorem exists_longest (h : ∃ rule ∈ rules, rule.2 ≠ []) :
    ∃ rule ∈ rules, rule.2 ≠ [] ∧ ∀ o ∈ rules, o.2 ≠ [] → o.1.length ≤ rule.1.length := by
  have hsome : (rules.mergeSort fun a b => b.1.length ≤ a.1.length).findSome?
      (fun rule => rule.2.head?) ≠ none := by
    rw [Ne, findSome?_mergeSort_eq_none_iff (fun rule : TextRule => rule.1.length)]
    obtain ⟨rule, hrule, hd⟩ := h
    exact fun hnone => hd (List.head?_eq_none_iff.mp (hnone rule hrule))
  obtain ⟨d, hd⟩ := Option.ne_none_iff_exists'.mp hsome
  obtain ⟨rule, hrule, hfirst⟩ :=
    exists_firstHeaviest (fun rule : TextRule => rule.1.length) hd
  refine ⟨rule, hfirst.mem, fun hnil => ?_, fun o ho hne => hfirst.le o ho ?_⟩
  · rw [hnil] at hrule
    cases hrule
  · exact List.isSome_head?.mpr hne

/-- Under the newer standard an absolute path is found by what continues the longest rule
with it. -/
theorem findSome?_psr4Path (root : Path) (hrules : ∃ rule ∈ rules, rule.2 ≠ [])
    (hstem : stem.toList.head? = some '/') (hback : '\\' ∉ stem.toList)
    (hfile : t.isFile (Path.ofString (stem ++ ".php")) = true) :
    ∃ identifier, (rules.mergeSort fun a b => b.1.length ≤ a.1.length).findSome?
        (fileOf root t identifier fun b => psr4Path b identifier)
      = some (Path.ofString (stem ++ ".php")) := by
  obtain ⟨rule, hrule, hd, hlongest⟩ := exists_longest hrules
  obtain ⟨rest, hrest⟩ := head?_replaceChar '\\' hstem
  have happlies := applies_append rule.1 hrest
  have hpath := psr4Path_append rule.1 (replaceChar '/' '\\' stem)
  rw [replaceChar_replaceChar hback] at hpath
  refine ⟨rule.1 ++ replaceChar '/' '\\' stem, ?_⟩
  generalize rule.1 ++ replaceChar '/' '\\' stem = identifier at happlies hpath
  have hroot := Path.root_ofString_append_ne hstem ".php"
  have hfound {o : TextRule} (ho : applies o.1 identifier = true) (hne : o.2 ≠ [])
      (hlength : o.1.length = rule.1.length) :
      fileOf root t identifier (fun b => psr4Path b identifier) o
        = some (Path.ofString (stem ++ ".php")) := by
    refine fileOf_root ho hne ?_ hroot hfile
    rw [← hpath]
    unfold psr4Path
    rw [hlength]
  -- a rule that leads there is as long as the chosen one, so it makes the same path
  refine findSome?_mergeSort_of_agree (fun rule : TextRule => rule.1.length) hrule
    (hfound happlies hd rfl) fun o ho hanswers hge => ?_
  obtain ⟨p, hp⟩ := Option.isSome_iff_exists.mp hanswers
  obtain ⟨happlies', _, d, hmem, _⟩ := of_fileOf hp
  have hne : o.2 ≠ [] := List.ne_nil_of_mem hmem
  exact hfound happlies' hne (Nat.le_antisymm (hlongest o ho hne) hge)

/-- Under the older standard an absolute path is found by the identifier that has underscores
for its slashes. -/
theorem findSome?_psr0Path (root : Path)
    (hrules : ∃ rule ∈ rules, applies rule.1 (replaceChar '/' '_' stem) = true ∧ rule.2 ≠ [])
    (hstem : stem.toList.head? = some '/') (hback : '\\' ∉ stem.toList) (hunder : '_' ∉ stem.toList)
    (hfile : t.isFile (Path.ofString (stem ++ ".php")) = true) :
    (rules.mergeSort fun a b => b.1.length ≤ a.1.length).findSome?
        (fileOf root t (replaceChar '/' '_' stem) fun _ => psr0Path (replaceChar '/' '_' stem))
      = some (Path.ofString (stem ++ ".php")) := by
  obtain ⟨rule, hrule, happlies, hd⟩ := hrules
  have hback' : '\\' ∉ (replaceChar '/' '_' stem).toList := by
    unfold replaceChar
    rw [String.toList_map]
    intro hmem
    obtain ⟨c, hc, heq⟩ := List.mem_map.mp hmem
    split at heq
    · cases heq
    · exact hback (heq ▸ hc)
  have hpath := psr0Path_eq hback'
  rw [replaceChar_replaceChar hunder] at hpath
  generalize replaceChar '/' '_' stem = identifier at happlies hpath
  have hfound {o : TextRule} (ho : applies o.1 identifier = true) (hne : o.2 ≠ []) :
      fileOf root t identifier (fun _ => psr0Path identifier) o
        = some (Path.ofString (stem ++ ".php")) :=
    fileOf_root ho hne hpath (Path.root_ofString_append_ne hstem ".php") hfile
  refine findSome?_mergeSort_of_agree (fun rule : TextRule => rule.1.length) hrule
    (hfound happlies hd) fun o _ hanswers _ => ?_
  obtain ⟨p, hp⟩ := Option.isSome_iff_exists.mp hanswers
  obtain ⟨happlies', _, d, hmem, _⟩ := of_fileOf hp
  exact hfound happlies' (List.ne_nil_of_mem hmem)

end

/-- Files that rules find are below a directory of a rule for the identifier, unless the path
of the identifier steps out of it; and once a rule has a directory, every file with the
extension of PHP files is found for some identifier, wherever it is. -/
theorem found_below (root : Path) (t : FileTree) (newer older : List TextRule)
    (classmap : List String) :
    (∀ identifier p, (ofTexts root newer older classmap).findPsr4 t identifier = .ok (some p) →
      ∃ rule ∈ newer, applies rule.1 identifier = true ∧ ∃ d ∈ rule.2,
        (psr4Path rule.1 identifier).StepsOut ∨ t.HasBelow (root.join (Path.ofString d)) p)
    ∧ (∀ identifier p, (ofTexts root newer older classmap).findPsr0 t identifier = .ok (some p) →
      ∃ rule ∈ older, applies rule.1 identifier = true ∧ ∃ d ∈ rule.2,
        (psr0Path identifier).StepsOut ∨ t.HasBelow (root.join (Path.ofString d)) p)
    ∧ ∀ stem : String, stem.toList.head? = some '/' → '\\' ∉ stem.toList →
      t.isFile (Path.ofString (stem ++ ".php")) = true →
      ((∃ rule ∈ newer, rule.2 ≠ []) → ∃ identifier,
        (ofTexts root newer older classmap).findPsr4 t
          identifier = .ok (some (Path.ofString (stem ++ ".php"))))
      ∧ ('_' ∉ stem.toList →
        (∃ rule ∈ older, applies rule.1 (replaceChar '/' '_' stem) = true ∧ rule.2 ≠ []) →
        (ofTexts root newer older classmap).findPsr0 t
          (replaceChar '/' '_' stem) = .ok (some (Path.ofString (stem ++ ".php")))) := by
  have hnewer := findPsr4_texts root newer older classmap t
  have holder := findPsr0_texts root newer older classmap t
  refine ⟨fun identifier p h => ?_, fun identifier p h => ?_,
    fun stem hstem hback hfile => ⟨?_, ?_⟩⟩
  · have hfound := Except.ok.inj ((hnewer identifier).symm.trans h)
    obtain ⟨rule, hrule, hbelow⟩ :=
      below_of_findSome? (fun b => parts_psr4Path b identifier) hfound
    exact ⟨rule, List.mem_mergeSort.mp hrule, hbelow⟩
  · have hfound := Except.ok.inj ((holder identifier).symm.trans h)
    obtain ⟨rule, hrule, hbelow⟩ :=
      below_of_findSome? (fun _ => parts_psr0Path identifier) hfound
    exact ⟨rule, List.mem_mergeSort.mp hrule, hbelow⟩
  · intro hdirectories
    obtain ⟨identifier, hfound⟩ := findSome?_psr4Path root hdirectories hstem hback hfile
    exact ⟨identifier, (hnewer identifier).trans (congrArg Except.ok hfound)⟩
  · intro hunder hdirectories
    exact (holder _).trans
      (congrArg Except.ok (findSome?_psr0Path root hdirectories hstem hback hunder hfile))

/-! ## A file beside the directory -/

/-- A project with its classes in `src`, and a file beside that. -/
def besideTree : FileTree :=
  ⟨[(["src", "User.php"], []), (["secret.php"], [])], [["src"]], []⟩

/-- Classes below `App` in `src`, and all others in `lib`, which is not there. -/
def besideRules : AutoloadRules :=
  ofTexts Path.here [("App\\", ["src"])] [("", ["lib"])] []

/-- A class is found below the directory; two dots, and a path with a root, lead to the file
beside it. -/
theorem found_below_beside :
    besideRules.findPsr4 besideTree "App\\User" = .ok (some ⟨"", ["src", "User.php"]⟩)
      ∧ besideTree.HasBelow (Path.here.join (Path.ofString "src")) ⟨"", ["src", "User.php"]⟩
      ∧ besideRules.findPsr4 besideTree "App\\..\\secret"
        = .ok (some ⟨"", ["src", "..", "secret.php"]⟩)
      ∧ besideTree.place ⟨"", ["src", "..", "secret.php"]⟩ = ["secret.php"]
      ∧ besideTree.isFile (Path.ofString "/secret.php") = true
      ∧ (∃ identifier, besideRules.findPsr4 besideTree identifier
        = .ok (some (Path.ofString "/secret.php")))
      ∧ besideRules.findPsr0 besideTree "_secret" = .ok (some (Path.ofString "/secret.php")) := by
  obtain ⟨hnewer, _, hanywhere⟩ :=
    found_below Path.here besideTree [("App\\", ["src"])] [("", ["lib"])] []
  have hfound := findPsr4_texts Path.here [("App\\", ["src"])] [("", ["lib"])] [] besideTree
  have hclass : besideRules.findPsr4 besideTree "App\\User"
      = .ok (some ⟨"", ["src", "User.php"]⟩) :=
    (hfound _).trans (congrArg _ (by decide +kernel))
  have habove : besideRules.findPsr4 besideTree "App\\..\\secret"
      = .ok (some ⟨"", ["src", "..", "secret.php"]⟩) :=
    (hfound _).trans (congrArg _ (by decide +kernel))
  have hfile : besideTree.isFile (Path.ofString "/secret.php") = true := by decide +kernel
  obtain ⟨hnew, hold⟩ := hanywhere "/secret" (by decide +kernel) (by decide +kernel) hfile
  have hunder : replaceChar '/' '_' "/secret" = "_secret" := by decide +kernel
  rw [hunder] at hold
  refine ⟨hclass, ?_, habove, by decide +kernel, hfile, ?_, ?_⟩
  · obtain ⟨rule, hrule, _, d, hd, hbelow⟩ := hnewer _ _ hclass
    obtain rfl := List.mem_singleton.mp hrule
    obtain rfl := List.mem_singleton.mp hd
    refine hbelow.resolve_left fun hsteps => ?_
    revert hsteps
    unfold Path.StepsOut
    decide +kernel
  · exact hnew ⟨_, List.mem_singleton_self _, by decide⟩
  · exact hold (by decide +kernel) ⟨_, List.mem_singleton_self _, by decide +kernel, by decide⟩

end AutoloadRules

end StaticReflection
