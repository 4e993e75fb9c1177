import StaticReflection.Proofs.Folding.Outcome
import StaticReflection.Reflection.Constants

/-!
# The classes of a fixed world

A world whose locators are texts and files that can be read offers the same sources for
every identifier, and lists the same ones. `World.classes` are the class-likes of those
sources in order, and `World.find?` is the first with a key.

> `World.answer`: what reflecting an identifier comes to in such a world, whatever was
> asked before.

That it does is for the queries to show; here are the sources, and what the steps of
locating make of them. The only thing they change in such a world is its warnings
(`World.Like`).
-/

namespace StaticReflection

open Folding

/-- The text that a locator offers for every identifier, and its origin. Only texts and
files that can be read have one. -/
def Locator.fixed? (t : FileTree) : Locator → Option (String × String)
  | .text source origin => some (source, origin)
  | .file path => (t.text path).toOption.map fun text => (text, path.toText)
  | _ => none

namespace World

variable (w : World)

/-- Every locator offers a text of its own. -/
def IsStatic : Prop := ∀ l ∈ w.locators, (l.fixed? w.files).isSome = true

/-- The parsed source of a locator. -/
def sourceOf? (l : Locator) : Option ParsedSource :=
  (l.fixed? w.files).map fun (text, origin) => w.trees.parse text origin

/-- The parsed sources, in the order of the locators. -/
def sources : List ParsedSource := w.locators.filterMap w.sourceOf?

/-- The class-likes of a source. -/
def classesIn (p : ParsedSource) : List ReflectedClass := (ClassLike.all p).map fun c => ⟨c, p⟩

/-- The class-likes of all sources, in source order. -/
def classes : List ReflectedClass := w.sources.flatMap classesIn

/-- The first class-like with a key. -/
def find? (key : String) : Option ReflectedClass := w.classes.find? fun c => c.key == key

/-- What reflecting an identifier comes to. -/
def answer (identifier : String) : Outcome ReflectedClass :=
  let key := Identifier.normalize identifier
  if key.isEmpty then .error (.emptyIdentifier identifier)
  else match w.find? key with
    | some c => .ok c
    | none => .error (.classNotFound identifier)

/-- Two worlds that differ in nothing but their warnings. -/
structure Like (w w' : World) : Prop where
  files : w'.files = w.files
  trees : w'.trees = w.trees
  locators : w'.locators = w.locators

/-- The source of the locator at a position. -/
def sourceAt? (i : Nat) : Option ParsedSource := w.locators[i]?.bind w.sourceOf?

/-- The class-likes of the sources of the locators at some positions. -/
def classesAt (positions : List Nat) : List ReflectedClass :=
  (positions.filterMap w.sourceAt?).flatMap classesIn

/-- The keys of all class-likes. -/
def keys : List String := w.classes.map (·.key)

variable {w}

/-- A world with one text is static. -/
theorem isStatic_of_text {text origin : String} (h : w.locators = [.text text origin]) :
    w.IsStatic := fun l hl => by
  rw [h] at hl
  rw [List.mem_singleton.mp hl]
  rfl

theorem key_of_find? {key : String} {c : ReflectedClass} (h : w.find? key = some c) :
    c.key = key := by
  have := List.find?_some h
  exact eq_of_beq this

theorem mem_classes_of_find? {key : String} {c : ReflectedClass} (h : w.find? key = some c) :
    c ∈ w.classes := List.mem_of_find?_eq_some h

theorem mem_keys_of_find? {key : String} {c : ReflectedClass} (h : w.find? key = some c) :
    key ∈ w.keys := key_of_find? h ▸ List.mem_map_of_mem (mem_classes_of_find? h)

/-- There is a first class-like with the key of a class-like. -/
theorem exists_find? {c : ReflectedClass} (h : c ∈ w.classes) : ∃ d, w.find? c.key = some d := by
  cases hfind : w.find? c.key with
  | some d => exact ⟨d, rfl⟩
  | none => exact absurd (beq_self_eq_true c.key) (List.find?_eq_none.mp hfind c h)

/-- A class that was found under some key is found under its own. -/
theorem find?_key {key : String} {c : ReflectedClass} (h : w.find? key = some c) :
    w.find? c.key = some c := by rw [key_of_find? h]; exact h

theorem find?_of_answer {identifier : String} {c : ReflectedClass}
    (h : w.answer identifier = .ok c) :
    w.find? (Identifier.normalize identifier) = some c
      ∧ (Identifier.normalize identifier).isEmpty = false := by
  unfold answer at h
  simp only at h
  split at h
  · cases h
  next hempty =>
    split at h
    next hc => cases h; exact ⟨hc, Bool.eq_false_iff.mpr hempty⟩
    next => cases h

/-- What an identifier names is the first class-like with its key. -/
theorem find?_key_of_answer {identifier : String} {c : ReflectedClass}
    (h : w.answer identifier = .ok c) : w.find? c.key = some c := find?_key (find?_of_answer h).1

theorem isNotFound_of_answer {identifier : String} {f : Failure}
    (h : w.answer identifier = .error f) : f.isNotFound = true := by
  unfold answer at h
  simp only at h
  split at h
  · cases h; rfl
  · split at h
    · cases h
    · cases h; rfl

/-! ## Locating -/

/-- The sources are those of the locators at all positions. -/
theorem sources_eq : w.sources = (List.range w.locators.length).filterMap w.sourceAt? := by
  have hmap : (List.range w.locators.length).map (fun i => w.locators[i]?)
      = w.locators.map some := by
    apply List.ext_getElem
    · rw [List.length_map, List.length_map, List.length_range]
    · intro i hi _
      rw [List.length_map, List.length_range] at hi
      rw [List.getElem_map, List.getElem_map, List.getElem_range, List.getElem?_eq_getElem hi]
  have hcomp : w.sourceAt?
      = (fun o : Option Locator => o.bind w.sourceOf?) ∘ fun (i : Nat) => w.locators[i]? := rfl
  rw [hcomp, ← List.filterMap_map, hmap, List.filterMap_map]
  rfl

theorem classes_eq : w.classes = w.classesAt (List.range w.locators.length) := by
  unfold classes classesAt
  rw [sources_eq]

theorem classesAt_cons {i : Nat} {rest : List Nat} {p : ParsedSource}
    (h : w.sourceAt? i = some p) :
    w.classesAt (i :: rest) = classesIn p ++ w.classesAt rest := by
  unfold classesAt
  rw [List.filterMap_cons_some h, List.flatMap_cons]

theorem mem_sources {p : ParsedSource} (h : p ∈ w.sources) :
    ∃ l ∈ w.locators, ∃ text origin, l.fixed? w.files = some (text, origin)
      ∧ p = w.trees.parse text origin := by
  obtain ⟨l, hl, hp⟩ := List.mem_filterMap.mp h
  obtain ⟨⟨text, origin⟩, hfixed, hparse⟩ := Option.map_eq_some_iff.mp hp
  exact ⟨l, hl, text, origin, hfixed, hparse.symm⟩

theorem mem_classes {c : ReflectedClass} (h : c ∈ w.classes) :
    c.source ∈ w.sources ∧ c.classLike ∈ ClassLike.all c.source := by
  obtain ⟨p, hp, hc⟩ := List.mem_flatMap.mp h
  obtain ⟨cl, hcl, rfl⟩ := List.mem_map.mp hc
  exact ⟨hp, hcl⟩

theorem like_refl : w.Like w := ⟨rfl, rfl, rfl⟩

/-- In a static world the locator at a position has a supply that it offers for every
identifier and is all that it lists, and a text that fetching the supply gives. -/
theorem exists_supply (hw : w.IsStatic) {i : Nat} (hi : i < w.locators.length) :
    ∃ supply text origin, w.sourceAt? i = some (w.trees.parse text origin)
      ∧ (∀ identifier, w.files.fetch identifier supply = .ok ⟨text, origin, identifier⟩)
      ∧ (∀ identifier, Comes w.Like (supply? i identifier) (.ok (some supply)) w.Like)
      ∧ Comes w.Like (supplies i) (.ok [supply]) w.Like := by
  have hl : w.locators[i]? = some w.locators[i] := List.getElem?_eq_getElem hi
  have hfixed := hw _ (List.getElem_mem hi)
  -- looking at the position finds the locator in every world like this one
  have hlocator : Comes w.Like (locator? i) (.ok (some w.locators[i])) w.Like := by
    intro w' h
    refine ⟨?_, h⟩
    rw [← hl, ← h.locators]
    rfl
  unfold sourceAt? sourceOf?
  rw [hl, Option.bind_some]
  generalize w.locators[i] = l at hfixed hlocator
  cases l with
  | text source origin =>
    exact ⟨.text source origin, source, origin, rfl, fun _ => rfl,
      fun _ => hlocator.bind_ok .pure, hlocator.bind_ok .pure⟩
  | file path =>
    cases ht : w.files.text path with
    | error e => rw [Locator.fixed?, ht] at hfixed; cases hfixed
    | ok text =>
      refine ⟨.file path, text, path.toText, ?_, fun _ => ?_,
        fun _ => hlocator.bind_ok .pure, hlocator.bind_ok .pure⟩
      · rw [Locator.fixed?, ht]
        rfl
      · rw [FileTree.fetch, ht]
  | unlisted source => cases hfixed
  | table t => cases hfixed
  | project rules index => cases hfixed
  | own answers => cases hfixed

theorem positions_comes :
    Comes w.Like positions (.ok (List.range w.locators.length)) w.Like := by
  intro w' h
  refine ⟨?_, h⟩
  rw [← h.locators]
  rfl

theorem fetch_comes (identifier : Option String) (s : Supply) :
    Comes w.Like (fetch identifier s) (w.files.fetch identifier s) w.Like := by
  intro w' h
  refine ⟨?_, h⟩
  rw [← h.files]
  rfl

/-- Parsing leaves a warning and nothing else. -/
theorem parse_comes (text origin : String) :
    Comes w.Like (parse text origin) (.ok (w.trees.parse text origin)) w.Like := by
  intro w' h
  refine ⟨?_, h.files, h.trees, h.locators⟩
  rw [← h.trees]
  rfl

theorem warn_comes (messages : List String) : Comes w.Like (warn messages) (.ok ⟨⟩) w.Like :=
  .modify fun _ h => ⟨h.files, h.trees, h.locators⟩

theorem locateAt_comes {i : Nat} {identifier text origin : String} {supply : Supply}
    (hs : Comes w.Like (supply? i identifier) (.ok (some supply)) w.Like)
    (hf : w.files.fetch (some identifier) supply = .ok ⟨text, origin, some identifier⟩) :
    Comes w.Like (locateAt i identifier) (.ok (some ⟨text, origin, some identifier⟩)) w.Like := by
  have hfetch := fetch_comes (w := w) (some identifier) supply
  rw [hf] at hfetch
  exact hs.bind_ok (hfetch.bind_ok .pure)

end World

end StaticReflection
