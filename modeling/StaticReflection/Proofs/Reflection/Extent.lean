import StaticReflection.Proofs.Reflection.Coherent

/-!
# How many classes and constants there are

A query that comes through classes, or through constants, ends because there are only so
many of them: `World.knownKeys` and `World.knownConstants` list all that the texts of a
world declare. `unused all used` counts those that are left, and taking one that is left
makes it smaller (`unused_cons_lt`).

> `Store.Coherent.bound_lt_depth`: the depth that queries begin with is more than all
> constants, each with all classes, and all classes once more.

The depth is computed from the texts, in which a text counts once although several
locators may offer it. The sources that the locators offer are among them up to their
origin, on which neither keys nor the names of constants depend.
-/

namespace StaticReflection

open Folding Reflector

/-- How many of some things are not among the used ones. -/
def unused {α : Type} [BEq α] (all used : List α) : Nat := all.countP fun a => !used.contains a

section

variable {α : Type} [BEq α] {all used : List α} {a : α}

theorem unused_le_length : unused all used ≤ all.length := List.countP_le_length

theorem unused_cons_le : unused all (a :: used) ≤ unused all used := by
  refine List.countP_mono_left fun b _ hb => ?_
  rw [List.contains_cons, Bool.not_or, Bool.and_eq_true] at hb
  exact hb.2

/-- Using something that is left leaves less. -/
theorem unused_cons_lt [LawfulBEq α] (ha : a ∈ all) (hu : a ∉ used) :
    unused all (a :: used) < unused all used := by
  have hnew : (!used.contains a) = true := by
    rw [Bool.not_eq_true', ← Bool.not_eq_true, List.contains_iff_mem]
    exact hu
  have hold : ¬(!(a :: used).contains a) = true := by
    rw [List.contains_cons, beq_self_eq_true, Bool.true_or]
    exact Bool.false_ne_true
  induction all with
  | nil => cases ha
  | cons b rest ih =>
    by_cases hb : b = a
    · -- this one is used up now, and the rest has no more left than before
      have hrest : unused rest (a :: used) ≤ unused rest used := unused_cons_le
      unfold unused at hrest ⊢
      rw [hb, List.countP_cons, List.countP_cons, if_neg hold, if_pos hnew]
      omega
    · -- this one is used or not as before
      have hmem : a ∈ rest := by
        rcases List.mem_cons.mp ha with h | h
        · exact absurd h.symm hb
        · exact h
      have hrest := ih hmem
      have hhead : (!(a :: used).contains b) = (!used.contains b) := by
        rw [List.contains_cons, beq_false_of_ne hb, Bool.false_or]
      unfold unused at hrest ⊢
      rw [List.countP_cons, List.countP_cons, hhead]
      omega

end

/-! ## What a class declares -/

theorem Node.length_le_sizes (ns : List Node) : ns.length ≤ sizes ns := by
  induction ns with
  | nil => exact Nat.le_refl 0
  | cons n ns ih =>
    have := n.size_pos
    rw [List.length_cons, sizes]
    omega

/-- What each node gives is at most its size, so what all give is at most all sizes. -/
theorem Node.length_flatMap_le {α : Type} {ns : List Node} {f : Node → List α}
    (h : ∀ n ∈ ns, (f n).length ≤ n.size) : (ns.flatMap f).length ≤ sizes ns := by
  induction ns with
  | nil => exact Nat.le_refl 0
  | cons n ns ih =>
    have hn := h n (List.mem_cons_self ..)
    have hrest := ih fun m hm => h m (List.mem_cons_of_mem _ hm)
    rw [List.flatMap_cons, List.length_append, sizes]
    omega

namespace ConstantDeclaration

theorem length_put_le (d : ConstantDeclaration) (ds : List ConstantDeclaration) :
    (put d ds).length ≤ ds.length + 1 := by
  induction ds with
  | nil => exact Nat.le_refl 1
  | cons e rest ih =>
    unfold put
    split
    · exact Nat.le_succ _
    · rw [List.length_cons, List.length_cons]
      omega

theorem length_distinct_le (ds : List ConstantDeclaration) : (distinct ds).length ≤ ds.length := by
  have hfold (acc : List ConstantDeclaration) :
      (ds.foldl (fun acc d => put d acc) acc).length ≤ acc.length + ds.length := by
    induction ds generalizing acc with
    | nil => exact Nat.le_refl _
    | cons d rest ih =>
      have hput := length_put_le d acc
      have := ih (put d acc)
      rw [List.foldl_cons, List.length_cons]
      omega
  have := hfold []
  rw [List.length_nil, Nat.zero_add] at this
  exact this

theorem length_ofBody_le (p : ParsedSource) (body : Node) : (ofBody p body).length ≤ body.size := by
  have hstatements := Node.sizes_filter_le (·.kind == "const_declaration") body.children
  have hbody := body.size_eq
  have hall : (ofBody p body).length
      ≤ Node.sizes (body.children.filter (·.kind == "const_declaration")) := by
    refine Node.length_flatMap_le fun statement _ => ?_
    refine Nat.le_trans (List.length_filterMap_le _ _) ?_
    refine Nat.le_trans (List.length_filter_le _ _) ?_
    have := Node.length_le_sizes statement.children
    rw [statement.size_eq]
    omega
  omega

end ConstantDeclaration

theorem ReflectedClass.length_constants_le (c : ReflectedClass) :
    c.constants.length ≤ c.node.size := by
  unfold constants
  split
  · exact Nat.zero_le _
  next body hbody =>
    have hlt := Node.size_lt_of_mem (Node.mem_of_childInField? hbody)
    have hdistinct := ConstantDeclaration.length_distinct_le
      (ConstantDeclaration.ofBody c.source body)
    have hall := ConstantDeclaration.length_ofBody_le c.source body
    omega

/-! ## What the texts declare -/

namespace World

variable (w : World)

/-- The class-likes of all texts. -/
def known : List ReflectedClass :=
  (Store.texts w).flatMap fun text => classesIn (w.trees.parse text "")

/-- The keys of all class-likes of all texts. -/
def knownKeys : List String := w.known.map (·.key)

/-- All constants that class-likes of all texts declare. -/
def knownConstants : List ConstantKey :=
  w.known.flatMap fun c => c.constants.map fun d => (c.key, d.name)

variable {w}

/-- A file that a path leads to is one of the files. -/
theorem mem_files_of_follow {t : FileTree} {parts : List String} {place : Place}
    {bytes : List UInt8} (h : t.follow place parts = .ok (.file bytes)) :
    ∃ q, (q, bytes) ∈ t.files := by
  induction parts generalizing place with
  | nil =>
    unfold FileTree.follow FileTree.entry at h
    split at h
    next found hlookup =>
      cases h
      obtain ⟨before, after, hfiles, _⟩ := List.lookup_eq_some_iff.mp hlookup
      exact ⟨place, hfiles ▸ List.mem_append_right _ (List.mem_cons_self ..)⟩
    next => split at h <;> cases h
  | cons part rest ih =>
    unfold FileTree.follow at h
    split at h
    · split at h
      · exact ih h
      · exact ih h
    · split at h <;> cases h

theorem mem_texts {l : Locator} {text origin : String} (hl : l ∈ w.locators)
    (h : l.fixed? w.files = some (text, origin)) : text ∈ Store.texts w := by
  unfold Store.texts
  cases l with
  | text source origin =>
    cases h
    exact List.mem_append_left _ (List.mem_flatMap.mpr ⟨_, hl, List.mem_singleton_self _⟩)
  | file path =>
    -- the texts are those of all files, whichever paths lead to them
    refine List.mem_append_right _ ?_
    rw [Locator.fixed?, FileTree.text, FileTree.bytes] at h
    cases hfind : w.files.find path with
    | error e => rw [hfind] at h; cases h
    | ok entry =>
      rw [hfind] at h
      cases entry with
      | directory place => cases h
      | file bytes =>
        cases h
        obtain ⟨q, hq⟩ := mem_files_of_follow hfind
        exact List.mem_map.mpr ⟨_, hq, rfl⟩
  | unlisted source => cases h
  | table t => cases h
  | project rules index => cases h
  | own answers => cases h

theorem text_parse (t : GivenTrees) (text origin : String) :
    (t.parse text origin).text = (t.parse text "").text := rfl

theorem all_parse (t : GivenTrees) (text origin : String) :
    ClassLike.all (t.parse text origin) = ClassLike.all (t.parse text "") := rfl

/-- The constants that a class declares depend on nothing of its source but the text. -/
theorem constants_congr {cl : ClassLike} {p q : ParsedSource} (h : p.text = q.text) :
    ReflectedClass.constants ⟨cl, p⟩ = ReflectedClass.constants ⟨cl, q⟩ := by
  have hbody (body : Node) :
      ConstantDeclaration.ofBody p body = ConstantDeclaration.ofBody q body := by
    unfold ConstantDeclaration.ofBody ConstantDeclaration.ofElement?
    rw [h]
  unfold ReflectedClass.constants
  simp only [hbody]
  rfl

/-- A class-like is one of those of the texts, up to the origin of its source. -/
theorem exists_known {c : ReflectedClass} (h : c ∈ w.classes) :
    ∃ d ∈ w.known, d.key = c.key ∧ d.constants = c.constants := by
  obtain ⟨hp, hcl⟩ := mem_classes h
  obtain ⟨l, hl, text, origin, hfixed, hsource⟩ := mem_sources hp
  refine ⟨⟨c.classLike, w.trees.parse text ""⟩, ?_, rfl, ?_⟩
  · rw [hsource, all_parse] at hcl
    exact List.mem_flatMap.mpr ⟨text, mem_texts hl hfixed, List.mem_map.mpr ⟨_, hcl, rfl⟩⟩
  · refine (constants_congr (text_parse w.trees text origin).symm).trans ?_
    rw [← hsource]

theorem key_mem_knownKeys {c : ReflectedClass} (h : c ∈ w.classes) : c.key ∈ w.knownKeys := by
  obtain ⟨d, hd, hkey, _⟩ := exists_known h
  exact hkey ▸ List.mem_map_of_mem hd

theorem mem_knownConstants {c : ReflectedClass} {name : String} {d : ConstantDeclaration}
    (h : c ∈ w.classes) (hd : c.constant? name = some d) : (c.key, name) ∈ w.knownConstants := by
  obtain ⟨k, hk, hkey, hconstants⟩ := exists_known h
  have hname : d.name = name := by
    have := List.find?_some hd
    exact eq_of_beq this
  refine List.mem_flatMap.mpr ⟨k, hk, List.mem_map.mpr ⟨d, ?_, by rw [hkey, hname]⟩⟩
  rw [hconstants]
  exact List.mem_of_find?_eq_some hd

/-- The bound on how deep references go, with some constants being folded and some classes
searched: each further constant may be reached through all classes. -/
def bound (w : World) (folding : List ConstantKey) (searched : List String) : Nat :=
  unused w.knownConstants folding * (w.knownKeys.length + 1) + unused w.knownKeys searched

theorem length_knownKeys_le : w.knownKeys.length ≤ Node.sizes (w.known.map (·.node)) := by
  have := Node.length_le_sizes (w.known.map (·.node))
  rw [List.length_map] at this
  rw [knownKeys, List.length_map]
  exact this

theorem length_knownConstants_le :
    w.knownConstants.length ≤ Node.sizes (w.known.map (·.node)) := by
  unfold knownConstants
  induction w.known with
  | nil => exact Nat.le_refl 0
  | cons c cs ih =>
    have hc := c.length_constants_le
    rw [List.flatMap_cons, List.length_append, List.length_map, List.map_cons, Node.sizes]
    omega

end World

namespace Store

variable {w : World} {L : List ConstantKey} {K : List String} {s : Store}

theorem Coherent.sizes_known_le (h : s.Coherent w) :
    Node.sizes (w.known.map (·.node)) ≤ s.extent := by
  have htexts : texts s.world = texts w := by
    unfold texts
    rw [h.world.locators, h.world.files]
  have hknown : w.known.map (·.node) = (texts s.world).flatMap fun text =>
      (ClassLike.all (s.world.trees.parse text "")).map (·.node) := by
    rw [htexts, h.world.trees, World.known, List.map_flatMap]
    unfold World.classesIn
    simp only [List.map_map]
    rfl
  rw [hknown]
  exact Nat.le_add_left _ _

theorem Coherent.keys_lt_depth (h : s.Coherent w) : w.knownKeys.length < s.depth := by
  have hle := Nat.le_trans World.length_knownKeys_le h.sizes_known_le
  have hdepth : s.extent + 2 ≤ s.depth := Nat.le_mul_of_pos_right _ (Nat.succ_pos _)
  omega

theorem Coherent.bound_lt_depth (h : s.Coherent w) (L : List ConstantKey) (K : List String) :
    w.bound L K < s.depth := by
  have hkeys := Nat.le_trans World.length_knownKeys_le h.sizes_known_le
  have hconstants := Nat.le_trans World.length_knownConstants_le h.sizes_known_le
  have hL : unused w.knownConstants L ≤ s.extent := Nat.le_trans unused_le_length hconstants
  have hK : unused w.knownKeys K ≤ s.extent := Nat.le_trans unused_le_length hkeys
  calc w.bound L K ≤ s.extent * (s.extent + 1) + s.extent :=
        Nat.add_le_add (Nat.mul_le_mul hL (Nat.succ_le_succ hkeys)) hK
    _ < (s.extent + 2) * (s.extent + 2) := by
        rw [Nat.add_mul, Nat.mul_add, Nat.mul_add]
        omega

end Store

end StaticReflection
