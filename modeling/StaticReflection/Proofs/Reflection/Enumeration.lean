import StaticReflection.Proofs.Declaration.Regions
import StaticReflection.Proofs.Reflection.History

/-!
# The list of all classes

Listing all classes of a static world gives one entry for each class-like of its sources,
in source order. The entry comes from what is kept under the key of the class-like, so
those with one key share the first of them.

> `Store.allClasses_describes_iff`: after any calls the entry at a position is the first
> class-like with the key of the one at that position. The entries describe the class-likes
> exactly if no two with one key differ in kind, name, file or line.
-/

namespace StaticReflection

open Folding Outcome Reflector Store

/-- Two class-likes have the same kind, name, file and line, which is what is listed of them. -/
structure ReflectedClass.Describes (c d : ReflectedClass) : Prop where
  kind : c.classLike.kind = d.classLike.kind
  name : c.name = d.name
  fileName : c.fileName? = d.fileName?
  startLine : c.startLine = d.startLine

namespace ReflectedClass.Describes

variable {c d e : ReflectedClass}

theorem symm (h : c.Describes d) : d.Describes c :=
  ⟨h.kind.symm, h.name.symm, h.fileName.symm, h.startLine.symm⟩

theorem trans (h : c.Describes d) (h' : d.Describes e) : c.Describes e :=
  ⟨h.kind.trans h'.kind, h.name.trans h'.name, h.fileName.trans h'.fileName,
    h.startLine.trans h'.startLine⟩

end ReflectedClass.Describes

namespace World

variable {w : World}

/-- Class-likes with one key do not differ in what is listed of them. -/
def RepeatsAgree (w : World) : Prop :=
  ∀ c ∈ w.classes, ∀ d ∈ w.classes, c.key = d.key → c.Describes d

/-- The entries at each position describe the class-likes there. -/
def ListedAs (w : World) (cs : List ReflectedClass) : Prop :=
  ∀ (i : Nat) (c d : ReflectedClass), cs[i]? = some c → w.classes[i]? = some d → c.Describes d

/-- The entry at a position is the first class-like with the key of the one there. -/
theorem find?_key_of_listed {i : Nat} {c d : ReflectedClass} (hc : w.listed[i]? = some c)
    (hd : w.classes[i]? = some d) : w.find? d.key = some c := by
  obtain ⟨e, he⟩ := exists_find? (List.mem_of_getElem? hd)
  have hcanonical : w.canonical d = e := by
    unfold canonical
    rw [he]
    rfl
  unfold listed at hc
  rw [List.getElem?_map, hd, Option.map_some, hcanonical] at hc
  exact he.trans hc

theorem listedAs_listed_iff : w.ListedAs w.listed ↔ w.RepeatsAgree := by
  constructor
  · intro h c hc d hd hkey
    obtain ⟨e, he⟩ := exists_find? hc
    -- both have the first class-like with their key as their entry
    have hentry {c : ReflectedClass} (hc : c ∈ w.classes) (hkey : w.find? c.key = some e) :
        e.Describes c := by
      obtain ⟨i, hi⟩ := List.mem_iff_getElem?.mp hc
      have hlisted : w.listed[i]? = some (w.canonical c) := by
        unfold listed
        rw [List.getElem?_map, hi, Option.map_some]
      have hfirst := find?_key_of_listed hlisted hi
      rw [Option.some.inj (hfirst.symm.trans hkey)] at hlisted
      exact h i e c hlisted hi
    exact (hentry hc he).symm.trans (hentry hd (hkey ▸ he))
  · intro h i c d hc hd
    have hfirst := find?_key_of_listed hc hd
    exact h c (mem_classes_of_find? hfirst) d (List.mem_of_getElem? hd) (key_of_find? hfirst)

end World

/-- Over sources that do not change, listing all classes has an entry for each class-like in
source order, whatever was asked before: the first class-like with its key. All entries
describe their class-likes if and only if those with one key agree in what is listed. -/
theorem Store.allClasses_describes_iff (w : World) (hw : w.IsStatic) (calls : List Call) :
    ∃ cs, outcome allClasses ((ofWorld w).afterCalls calls) = .ok cs
      ∧ cs.length = w.classes.length
      ∧ (∀ (i : Nat) (c d : ReflectedClass), cs[i]? = some c → w.classes[i]? = some d →
        w.find? d.key = some c)
      ∧ (w.ListedAs cs ↔ w.RepeatsAgree) := by
  have hafter := within_ofWorld.afterCalls hw calls
  exact ⟨w.listed, (allClasses_comes hw _ hafter).1, List.length_map .., fun _ _ _ =>
    World.find?_key_of_listed, World.listedAs_listed_iff⟩

/-! ## A name that is declared twice -/

/-- A text in which a class and an interface have one name. -/
def repeatedText : String := "<?php class A \x7b\x7d\ninterface A \x7b\x7d"

/-- The class. -/
def repeatedClass : Node :=
  ⟨"class_declaration", 6, 16, none, true, false,
    [⟨"class", 6, 11, none, false, false, []⟩, ⟨"name", 12, 13, some "name", true, false, []⟩,
      ⟨"declaration_list", 14, 16, some "body", true, false,
        [⟨"\x7b", 14, 15, none, false, false, []⟩, ⟨"\x7d", 15, 16, none, false, false, []⟩]⟩]⟩

/-- The interface on the next line. -/
def repeatedInterface : Node :=
  ⟨"interface_declaration", 17, 31, none, true, false,
    [⟨"interface", 17, 26, none, false, false, []⟩,
      ⟨"name", 27, 28, some "name", true, false, []⟩,
      ⟨"declaration_list", 29, 31, some "body", true, false,
        [⟨"\x7b", 29, 30, none, false, false, []⟩, ⟨"\x7d", 30, 31, none, false, false, []⟩]⟩]⟩

/-- The start of the text. -/
def repeatedTag : Node := ⟨"php_tag", 0, 5, none, true, false, []⟩

/-- The class-likes of the text, in source order. -/
def repeatedClassLikes : List ClassLike :=
  [⟨⟨repeatedClass, [repeatedTag]⟩, .classKind, "A", NameScope.empty⟩,
    ⟨⟨repeatedInterface, [repeatedClass, repeatedTag]⟩, .interfaceKind, "A", NameScope.empty⟩]

/-- The syntax tree of the text. -/
def repeatedRoot : Node :=
  ⟨"program", 0, 31, none, true, false, [repeatedTag, repeatedClass, repeatedInterface]⟩

/-- The world of the text. -/
def repeatedWorld : World :=
  ⟨FileTree.empty [], [(repeatedText, repeatedRoot)], [.text repeatedText "<string>"], []⟩

theorem all_repeatedText (origin : String) :
    ClassLike.all ⟨Source.ofString repeatedText, origin, repeatedRoot⟩ = repeatedClassLikes := by
  show ClassLike.found _ [] [repeatedTag, repeatedClass, repeatedInterface] NameScope.empty = _
  rw [ClassLike.found_cons, ClassLike.found_cons, ClassLike.found_cons, ClassLike.found_nil]
  rfl

theorem classes_repeatedWorld : repeatedWorld.classes = repeatedClassLikes.map fun c =>
    ⟨c, ⟨Source.ofString repeatedText, "<string>", repeatedRoot⟩⟩ := by
  have hsources : repeatedWorld.sources
      = [⟨Source.ofString repeatedText, "<string>", repeatedRoot⟩] := rfl
  rw [World.classes, hsources, List.flatMap_singleton, World.classesIn, all_repeatedText]

/-- The entry of the interface is the class, on the line before, also after a lookup. -/
theorem Store.allClasses_describes_repeated :
    repeatedWorld.IsStatic
      ∧ ∃ cs, outcome allClasses ((ofWorld repeatedWorld).afterCalls [.hasClass "a"]) = .ok cs
        ∧ cs.length = 2 ∧ ¬repeatedWorld.ListedAs cs := by
  have hw : repeatedWorld.IsStatic := World.isStatic_of_text rfl
  obtain ⟨cs, hcs, hlength, _, hiff⟩ :=
    allClasses_describes_iff repeatedWorld hw [.hasClass "a"]
  rw [classes_repeatedWorld] at hlength
  refine ⟨hw, cs, hcs, hlength, fun h => ?_⟩
  have hagree := hiff.mp h
  unfold World.RepeatsAgree at hagree
  rw [classes_repeatedWorld] at hagree
  have hkind := (hagree _ (List.mem_cons_self ..) _
    (List.mem_cons_of_mem _ (List.mem_cons_self ..)) rfl).kind
  cases hkind

end StaticReflection
