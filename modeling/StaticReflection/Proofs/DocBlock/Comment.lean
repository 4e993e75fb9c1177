import StaticReflection.DocBlock.Comment
import StaticReflection.Proofs.Text.Lines

/-!
# Doc comments, written and read

A comment (`DocBlock.WrittenComment`) is written as lines with a star each: the lines of a summary,
and for each tag its name with the first line of its value, and further lines. It is plain if its
lines are trimmed, none but the first one of a tag begins with a tag, and the summary neither begins
nor ends with an empty line.

> `DocBlock.ofComment_written`: a plain comment says what it was written from, whatever blanks
> stand before the stars, and whatever ends the lines.
-/

namespace StaticReflection.DocBlock

open Blank

/-! ## Comments as they are written -/

/-- Whether a line begins a tag. -/
def beginsTag (line : String) : Bool :=
  match line.toList with
  | '@' :: c :: _ => isTagChar c
  | _ => false

/-- The lines that are not empty, put together. -/
def filled (ls : List String) : String := String.intercalate "\n" (ls.filter (!·.isEmpty))

/-- A line as it is written: blanks, a star and a space, its text, and what it ends with. -/
structure WrittenLine where
  indent : String
  text : String
  ending : String

/-- A tag as it is written, with the first line of its value and the further ones. -/
structure WrittenTag where
  name : String
  first : WrittenLine
  more : List WrittenLine

/-- A comment as it is written. The blanks of its last line stand before the closing delimiter. -/
structure WrittenComment where
  opening : String
  summary : List WrittenLine
  tags : List WrittenTag
  closing : String

namespace WrittenLine

/-- The line with its star. -/
def starred (l : WrittenLine) : List Char := l.indent.toList ++ '*' :: ' ' :: l.text.toList

/-- The line with its star and its end. -/
def written (l : WrittenLine) : String := l.indent ++ "* " ++ l.text ++ l.ending

/-- There are only blanks before the star, and the line has no break but its end. -/
structure IsUnbroken (l : WrittenLine) : Prop where
  indent : ∀ c ∈ l.indent.toList, isBlank c = true ∧ Lines.isBreak c = false
  text : ∀ c ∈ l.text.toList, Lines.isBreak c = false
  ending : Lines.IsEnd l.ending

/-- The text of the line is trimmed. -/
structure IsPlain (l : WrittenLine) : Prop extends l.IsUnbroken where
  trimmed : IsTrimmed l.text.toList

end WrittenLine

namespace WrittenTag

/-- The line with the name of the tag. -/
def head (t : WrittenTag) : WrittenLine :=
  { t.first with text := "@" ++ t.name ++ " " ++ t.first.text }

/-- The lines of the tag. -/
def lines (t : WrittenTag) : List WrittenLine := t.head :: t.more

/-- The value of the tag: those of its lines that are not empty. -/
def value (t : WrittenTag) : String := filled ((t.first :: t.more).map (·.text))

/-- The further lines begin no tag. -/
structure IsPlain (t : WrittenTag) : Prop where
  name_nonempty : t.name.toList ≠ []
  name : ∀ c ∈ t.name.toList, isTagChar c = true
  first : t.first.IsPlain
  more : ∀ l ∈ t.more, l.IsPlain ∧ beginsTag l.text = false

end WrittenTag

namespace WrittenComment

/-- The lines with stars. -/
def lines (c : WrittenComment) : List WrittenLine := c.summary ++ c.tags.flatMap (·.lines)

/-- What stands between the delimiters. -/
def inside (c : WrittenComment) : String :=
  c.opening ++ String.join (c.lines.map (·.written)) ++ c.closing

/-- The comment with its delimiters. -/
def text (c : WrittenComment) : String := "/**" ++ c.inside ++ "*/"

/-- The summary begins no tag, and is not empty at either end. -/
structure IsPlain (c : WrittenComment) : Prop where
  opening : Lines.IsEnd c.opening
  summary : ∀ l ∈ c.summary, l.IsPlain ∧ beginsTag l.text = false
  summary_first : ∀ l, c.summary.head? = some l → l.text ≠ ""
  summary_last : ∀ l, c.summary.getLast? = some l → l.text ≠ ""
  tags : ∀ t ∈ c.tags, t.IsPlain
  closing : ∀ d ∈ c.closing.toList, isBlank d = true ∧ Lines.isBreak d = false

end WrittenComment

/-! ## Names of tags -/

/-- The code points of blanks. -/
def blankCodes : List Nat :=
  List.range' 9 5 ++ List.range' 0x1c 5 ++ [0x85, 0xa0, 0x1680] ++ List.range' 0x2000 11
    ++ [0x2028, 0x2029, 0x202f, 0x205f, 0x3000]

theorem mem_blankCodes {n : Nat} (h : isBlankCode n = true) : n ∈ blankCodes := by
  unfold isBlankCode at h
  simp only [Bool.or_eq_true, Bool.and_eq_true, decide_eq_true_eq, beq_iff_eq] at h
  simp only [blankCodes, List.mem_append, List.mem_range'_1, List.mem_cons, List.not_mem_nil]
  omega

/-- No blank stands in the name of a tag. -/
theorem not_isBlank_of_isTagChar {c : Char} (h : isTagChar c = true) : isBlank c = false := by
  have hcodes : ∀ n ∈ blankCodes, isTagChar (Char.ofNat n) = false := by decide +kernel
  refine Bool.eq_false_iff.mpr fun hblank => ?_
  have hname := hcodes c.toNat (mem_blankCodes hblank)
  rw [Char.ofNat_toNat, h] at hname
  cases hname

/-! ## One line -/

/-- A line loses the blanks before its star, the star, one space, and the blanks at its end. -/
theorem bareLine_starred {l : WrittenLine} (h : ∀ c ∈ l.indent.toList, isBlank c = true) :
    bareLine (String.ofList l.starred) = stripEnd l.text := by
  have hstart : dropStart l.starred = '*' :: ' ' :: l.text.toList := by
    rw [WrittenLine.starred, dropStart_blanks h]
    exact dropStart_of_head fun c hc => by cases hc; decide
  have hstar : dropEnd ('*' :: ' ' :: l.text.toList) = '*' :: dropEnd (' ' :: l.text.toList) :=
    dropEnd_append_cons [] (by decide) _
  have hstrip : (strip (String.ofList l.starred)).toList
      = '*' :: dropEnd (' ' :: l.text.toList) := by
    rw [toList_strip, String.toList_ofList, hstart, hstar]
  have hagain : dropEnd (dropEnd l.text.toList) = dropEnd l.text.toList :=
    dropEnd_of_last fun c hc => dropEnd_last hc
  unfold bareLine stripEnd
  rw [hstrip, dropEnd_cons (by decide)]
  -- behind a star without a text the space is gone already
  cases hempty : (dropEnd l.text.toList).isEmpty with
  | true =>
    rw [List.isEmpty_iff] at hempty
    rw [hempty]
    rfl
  | false =>
    show String.ofList (dropEnd (dropEnd l.text.toList)) = _
    rw [hagain]

/-- A line of blanks is empty. -/
theorem bareLine_blanks {cs : List Char} (h : ∀ c ∈ cs, isBlank c = true) :
    bareLine (String.ofList cs) = "" := by
  have hstrip : (strip (String.ofList cs)).toList = [] := by
    rw [toList_strip, String.toList_ofList, dropStart_eq_nil h]
    rfl
  unfold bareLine
  rw [hstrip]
  rfl

theorem tagOfLine?_at {line : String} {rest : List Char} (h : line.toList = '@' :: rest) :
    tagOfLine? line
      = if (rest.takeWhile isTagChar).isEmpty then none
        else some ⟨String.ofList (rest.takeWhile isTagChar),
          String.ofList (dropStart (rest.drop (rest.takeWhile isTagChar).length))⟩ := by
  unfold tagOfLine?
  rw [h]
  rfl

theorem tagOfLine?_eq_none {line : String} (h : beginsTag line = false) :
    tagOfLine? line = none := by
  unfold tagOfLine?
  split
  next rest hline =>
    cases rest with
    | nil => rfl
    | cons c rest =>
      unfold beginsTag at h
      rw [hline] at h
      have hc : isTagChar c = false := h
      rw [List.takeWhile_cons_of_neg (Bool.eq_false_iff.mp hc)]
      rfl
  next => rfl

theorem toList_stripEnd_head {name : String} (hname : ∀ c ∈ name.toList, isTagChar c = true)
    (first : String) :
    (stripEnd ("@" ++ name ++ " " ++ first)).toList
      = '@' :: (name.toList ++ dropEnd (' ' :: first.toList)) := by
  have hlast : ∀ c, name.toList.getLast? = some c → isBlank c = false := fun c hc =>
    not_isBlank_of_isTagChar (hname c (List.mem_of_getLast? hc))
  have hat : dropEnd ('@' :: (name.toList ++ ' ' :: first.toList))
      = '@' :: dropEnd (name.toList ++ ' ' :: first.toList) :=
    dropEnd_append_cons [] (by decide) _
  have hline : ("@" ++ name ++ " " ++ first).toList
      = '@' :: (name.toList ++ ' ' :: first.toList) := by
    rw [String.toList_append, String.toList_append, String.toList_append, List.append_assoc,
      List.append_assoc]
    rfl
  rw [stripEnd, String.toList_ofList, hline, hat, dropEnd_append hlast]

/-- A space ends the name of a tag, and is no part of the value behind it; it is gone if there is
no value on that line. -/
theorem dropEnd_space {cs : List Char} (h : IsTrimmed cs) :
    (dropEnd (' ' :: cs)).takeWhile isTagChar = [] ∧ dropStart (dropEnd (' ' :: cs)) = cs := by
  have hblank : ∀ c ∈ [' '], isBlank c = true := List.forall_mem_singleton.mpr (by decide)
  rw [dropEnd_cons (by decide), dropEnd_of_last h.last]
  cases cs with
  | nil => exact ⟨rfl, rfl⟩
  | cons c cs => exact ⟨rfl, (dropStart_blanks hblank _).trans (dropStart_of_head h.head)⟩

/-- The line with the name of a tag begins that tag. -/
theorem tagOfLine?_head {name first : String} (hne : name.toList ≠ [])
    (hname : ∀ c ∈ name.toList, isTagChar c = true) (hfirst : IsTrimmed first.toList) :
    tagOfLine? (stripEnd ("@" ++ name ++ " " ++ first)) = some ⟨name, first⟩ := by
  obtain ⟨hstop, hvalue⟩ := dropEnd_space hfirst
  have hwhile : (name.toList ++ dropEnd (' ' :: first.toList)).takeWhile isTagChar
      = name.toList := by
    rw [List.takeWhile_append_of_pos hname, hstop, List.append_nil]
  rw [tagOfLine?_at (toList_stripEnd_head hname first), hwhile,
    if_neg (fun hempty => hne (List.isEmpty_iff.mp hempty)), List.drop_left, hvalue,
    String.ofList_toList, String.ofList_toList]

/-! ## The lines of a comment -/

theorem body_delimited (inside : String) : body ("/**" ++ inside ++ "*/") = inside := by
  have htext : ("/**" ++ inside ++ "*/").toList
      = '/' :: '*' :: '*' :: (inside.toList ++ ['*', '/']) := by
    rw [String.toList_append, String.toList_append]
    rfl
  have htrimmed : IsTrimmed ("/**" ++ inside ++ "*/").toList := by
    constructor
    · intro c hc
      rw [htext] at hc
      cases hc
      decide
    · intro c hc
      rw [String.toList_append, List.getLast?_append] at hc
      cases hc
      decide
  have hreverse : (inside.toList ++ ['*', '/']).reverse = '/' :: '*' :: inside.toList.reverse :=
    List.reverse_append
  unfold body
  rw [strip_of_isTrimmed htrimmed, htext]
  simp only [hreverse, List.reverse_reverse, String.ofList_toList]

namespace WrittenLine

variable {l : WrittenLine} {ls : List WrittenLine}

theorem toList_written (l : WrittenLine) :
    l.written.toList = l.starred ++ l.ending.toList := by
  rw [written, starred, String.toList_append, String.toList_append, String.toList_append,
    List.append_assoc l.indent.toList]
  rfl

theorem IsUnbroken.starred (h : l.IsUnbroken) : ∀ c ∈ l.starred, Lines.isBreak c = false := by
  intro c hc
  simp only [WrittenLine.starred, List.mem_append, List.mem_cons] at hc
  rcases hc with hindent | rfl | rfl | htext
  · exact (h.indent c hindent).2
  · decide
  · decide
  · exact h.text c htext

/-- Neither a line nor what closes the comment begins with a line feed. -/
theorem head_written (h : ∀ l ∈ ls, l.IsUnbroken) {closing : List Char}
    (hclosing : ∀ c ∈ closing, Lines.isBreak c = false) :
    (ls.flatMap (·.written.toList) ++ closing).head? ≠ some '\n' := by
  have hunbroken {cs : List Char} (h : ∀ c ∈ cs, Lines.isBreak c = false) :
      cs.head? ≠ some '\n' := by
    intro hhead
    cases h '\n' (List.mem_of_head? hhead)
  cases ls with
  | nil => exact hunbroken hclosing
  | cons l ls =>
    have hstarred := hunbroken (h l (List.mem_cons_self ..)).starred
    rw [List.flatMap_cons, toList_written, List.append_assoc, List.append_assoc]
    cases hline : l.starred with
    | nil => exact absurd hline (List.append_ne_nil_of_right_ne_nil _ (List.cons_ne_nil _ _))
    | cons c line =>
      rw [hline] at hstarred
      exact hstarred

/-- Lines that are written one after the other are read as these lines, and what closes the
comment. -/
theorem splitFrom_written (h : ∀ l ∈ ls, l.IsUnbroken) {closing : List Char}
    (hclosing : ∀ c ∈ closing, Lines.isBreak c = false) :
    Lines.splitFrom [] (ls.flatMap (·.written.toList) ++ closing)
      = ls.map (·.starred) ++ Lines.splitFrom [] closing := by
  induction ls with
  | nil => rfl
  | cons l ls ih =>
    obtain ⟨hl, hls⟩ := List.forall_mem_cons.mp h
    rw [List.flatMap_cons, toList_written, List.append_assoc, List.append_assoc,
      Lines.splitFrom_line hl.starred hl.ending (head_written hls hclosing), ih hls]
    rfl

end WrittenLine

theorem WrittenTag.IsPlain.head_isUnbroken {t : WrittenTag} (h : t.IsPlain) :
    t.head.IsUnbroken := by
  refine ⟨h.first.indent, fun c hc => ?_, h.first.ending⟩
  rw [head, String.toList_append, String.toList_append, String.toList_append] at hc
  simp only [List.mem_append] at hc
  rcases hc with ((hat | hname) | hspace) | htext
  · have hat : c = '@' := List.mem_singleton.mp hat
    subst hat
    decide
  · have hblank := not_isBlank_of_isTagChar (h.name c hname)
    refine Bool.eq_false_iff.mpr fun hbreak => ?_
    rw [Lines.isBlank_of_isBreak hbreak] at hblank
    cases hblank
  · have hspace : c = ' ' := List.mem_singleton.mp hspace
    subst hspace
    decide
  · exact h.first.text c htext

namespace WrittenComment

variable {c : WrittenComment}

theorem IsPlain.unbroken (h : c.IsPlain) : ∀ l ∈ c.lines, l.IsUnbroken := by
  intro l hl
  rcases List.mem_append.mp hl with hsummary | htags
  · exact (h.summary l hsummary).1.toIsUnbroken
  · obtain ⟨t, ht, hl⟩ := List.mem_flatMap.mp htags
    rcases List.mem_cons.mp hl with rfl | hmore
    · exact (h.tags t ht).head_isUnbroken
    · exact ((h.tags t ht).more l hmore).1.toIsUnbroken

/-- The lines that are read are those that are written, after the one with the opening delimiter
and before the one with the closing delimiter if something stands there. -/
theorem IsPlain.bareLines (h : c.IsPlain) :
    ∃ closing, (closing = [] ∨ closing = [""])
      ∧ (Lines.split (body c.text)).map bareLine
          = "" :: c.lines.map (fun l => stripEnd l.text) ++ closing := by
  have hunbroken : ∀ d ∈ c.closing.toList, Lines.isBreak d = false := fun d hd =>
    (h.closing d hd).2
  have hinside : c.inside.toList
      = [] ++ (c.opening.toList ++ (c.lines.flatMap (·.written.toList) ++ c.closing.toList)) := by
    rw [inside, String.toList_append, String.toList_append, String.toList_join, List.flatMap_map,
      List.append_assoc]
    rfl
  have hbare : ((c.lines.map (·.starred)).map String.ofList).map bareLine
      = c.lines.map fun l => stripEnd l.text := by
    rw [List.map_map, List.map_map]
    refine List.map_congr_left fun l hl => ?_
    have hindent : ∀ d ∈ l.indent.toList, isBlank d = true := fun d hd =>
      ((h.unbroken l hl).indent d hd).1
    rw [Function.comp_apply, Function.comp_apply, bareLine_starred hindent]
  refine ⟨((Lines.splitFrom [] c.closing.toList).map String.ofList).map bareLine, ?_, ?_⟩
  · rw [Lines.splitFrom_last hunbroken]
    split
    · exact .inl rfl
    · rw [List.map_singleton, List.map_singleton,
        bareLine_blanks fun d hd => (h.closing d hd).1]
      exact .inr rfl
  · rw [text, body_delimited, Lines.split, hinside,
      Lines.splitFrom_line (fun d hd => by cases hd) h.opening
        (WrittenLine.head_written h.unbroken hunbroken),
      WrittenLine.splitFrom_written h.unbroken hunbroken, List.map_cons, List.map_append,
      List.map_cons, List.map_append, hbare]
    rfl

end WrittenComment

/-! ## The summary -/

/-- Empty lines around trimmed lines are stripped. -/
theorem strip_framed {ls closing : List String} (h : IsTrimmed (String.intercalate "\n" ls).toList)
    (hclosing : closing = [] ∨ closing = [""]) :
    strip (String.intercalate "\n" ("" :: ls ++ closing)) = String.intercalate "\n" ls := by
  by_cases hls : ls = []
  · subst hls
    rcases hclosing with rfl | rfl <;> decide
  · have hfeed : ∀ c ∈ ['\n'], isBlank c = true := List.forall_mem_singleton.mpr (by decide)
    have hframed : ∃ after : List Char, (∀ c ∈ after, isBlank c = true)
        ∧ (String.intercalate "\n" ("" :: ls ++ closing)).toList
            = ['\n'] ++ ((String.intercalate "\n" ls).toList ++ after) := by
      rcases hclosing with rfl | rfl
      · refine ⟨[], fun c hc => (by cases hc), ?_⟩
        rw [List.append_nil, String.intercalate_cons_of_ne_nil hls, String.toList_append,
          List.append_nil]
        rfl
      · refine ⟨['\n'], hfeed, ?_⟩
        rw [List.cons_append, String.intercalate_cons_of_ne_nil (by simp),
          String.intercalate_append_of_ne_nil hls (List.cons_ne_nil _ _),
          String.intercalate_singleton, String.append_empty, String.empty_append,
          String.toList_append, String.toList_append]
        rfl
    obtain ⟨after, hafter, hframed⟩ := hframed
    rw [strip, hframed, strip_between hfeed hafter h, String.ofList_toList]

/-! ## The tags -/

theorem filled_singleton (l : String) : filled [l] = l := by
  by_cases hl : l = ""
  · subst hl
    rfl
  · unfold filled
    rw [List.filter_cons_of_pos (by simpa using hl)]
    exact String.intercalate_singleton

/-- Lines can be put together one after the other. -/
theorem filled_cons_filled (ls ms : List String) :
    filled (filled ls :: ms) = filled (ls ++ ms) := by
  unfold filled
  rw [List.filter_append]
  cases hls : ls.filter (!·.isEmpty) with
  | nil => rfl
  | cons l more =>
    have hl : l ≠ "" := by
      have hmem : l ∈ ls.filter (!·.isEmpty) := hls ▸ List.mem_cons_self ..
      simpa using (List.mem_filter.mp hmem).2
    have hjoined : String.intercalate "\n" (l :: more) ≠ "" := by
      obtain ⟨rest, hrest⟩ := Lines.joined_eq_append l more
      intro hempty
      rw [hempty] at hrest
      exact hl (String.toList_eq_nil_iff.mp (List.append_eq_nil_iff.mp hrest.symm).1)
    rw [List.filter_cons_of_pos (by simpa using hjoined)]
    cases ms.filter (!·.isEmpty) with
    | nil => rw [String.intercalate_singleton, List.append_nil]
    | cons m rest =>
      rw [String.intercalate_cons_of_ne_nil (List.cons_ne_nil m rest),
        String.intercalate_append_of_ne_nil (List.cons_ne_nil l more) (List.cons_ne_nil m rest)]

theorem extend_eq (t : DocTag) (line : String) :
    DocTag.extend t line = { t with value := filled [t.value, line] } := by
  obtain ⟨name, value⟩ := t
  unfold DocTag.extend
  by_cases hline : line = ""
  · subst hline
    have hvalue : filled [value, ""] = value := filled_singleton value
    rw [hvalue]
    rfl
  · have hempty : line.isEmpty = false := by simpa using hline
    rw [hempty]
    by_cases hvalue : value = ""
    · subst hvalue
      have hone : filled ["", line] = line := filled_singleton line
      rw [hone]
      rfl
    · have hempty : value.isEmpty = false := by simpa using hvalue
      have htwo : filled [value, line] = value ++ "\n" ++ line := by
        unfold filled
        rw [List.filter_cons_of_pos (by simpa using hvalue),
          List.filter_cons_of_pos (by simpa using hline)]
        rw [List.filter_nil, String.intercalate_cons_cons, String.intercalate_singleton]
      rw [hempty, htwo]
      rfl

/-- The further lines of a value are put behind it. -/
theorem foldl_extend (ls : List String) (t : DocTag) :
    ls.foldl DocTag.extend t = { t with value := filled (t.value :: ls) } := by
  induction ls generalizing t with
  | nil => rw [filled_singleton]; rfl
  | cons l ls ih =>
    rw [List.foldl_cons, ih, extend_eq, filled_cons_filled]
    rfl

/-- Lines that begin no tag belong to the value of the tag before them. -/
theorem tagsFrom_append {ls : List String} (h : ∀ l ∈ ls, tagOfLine? l = none ∧ strip l = l)
    (t : DocTag) (rest : List String) :
    tagsFrom t (ls ++ rest) = tagsFrom (ls.foldl DocTag.extend t) rest := by
  induction ls generalizing t with
  | nil => rfl
  | cons l ls ih =>
    obtain ⟨⟨hnone, hstrip⟩, hls⟩ := List.forall_mem_cons.mp h
    rw [List.cons_append, tagsFrom, hnone]
    show tagsFrom (DocTag.extend t (strip l)) (ls ++ rest) = _
    rw [hstrip, ih hls]
    rfl

theorem tagsFrom_closing (t : DocTag) {closing : List String}
    (h : closing = [] ∨ closing = [""]) : tagsFrom t closing = [t] := by
  rcases h with rfl | rfl
  · rfl
  · rfl

/-- Lines that begin no tag make none. -/
theorem tagsOf_append {ls : List String} (h : ∀ l ∈ ls, tagOfLine? l = none)
    (rest : List String) : tagsOf (ls ++ rest) = tagsOf rest := by
  induction ls with
  | nil => rfl
  | cons l ls ih =>
    obtain ⟨hnone, hls⟩ := List.forall_mem_cons.mp h
    rw [List.cons_append, tagsOf, hnone]
    exact ih hls

theorem stripEnd_of_isTrimmed {line : String} (h : IsTrimmed line.toList) :
    stripEnd line = line := by
  rw [stripEnd, dropEnd_of_last h.last, String.ofList_toList]

namespace WrittenTag

/-- The tag as it is read. -/
def read (t : WrittenTag) : DocTag := ⟨t.name, t.value⟩

/-- The lines of a tag as they are read. -/
def bareLines (t : WrittenTag) : List String := t.lines.map fun l => stripEnd l.text

variable {t : WrittenTag} {ts : List WrittenTag}

/-- What the lines of a tag and other lines after it make. -/
theorem IsPlain.tags_bareLines (h : t.IsPlain) (rest : List String) :
    tagOfLine? (stripEnd t.head.text) = some ⟨t.name, t.first.text⟩
      ∧ t.bareLines = stripEnd t.head.text :: t.more.map (·.text)
      ∧ tagsFrom ⟨t.name, t.first.text⟩ (t.more.map (·.text) ++ rest) = tagsFrom t.read rest := by
  have hmore : ∀ l ∈ t.more.map (·.text), tagOfLine? l = none ∧ strip l = l := by
    intro line hline
    obtain ⟨l, hl, rfl⟩ := List.mem_map.mp hline
    obtain ⟨hplain, hbegins⟩ := h.more l hl
    exact ⟨tagOfLine?_eq_none hbegins, strip_of_isTrimmed hplain.trimmed⟩
  refine ⟨tagOfLine?_head h.name_nonempty h.name h.first.trimmed, ?_, ?_⟩
  · refine congrArg (stripEnd t.head.text :: ·) (List.map_congr_left fun l hl => ?_)
    exact stripEnd_of_isTrimmed (h.more l hl).1.trimmed
  · rw [tagsFrom_append hmore, foldl_extend]
    rfl

/-- Each tag is read after the one before it. -/
theorem tagsFrom_written (h : ∀ t ∈ ts, t.IsPlain) {closing : List String}
    (hclosing : closing = [] ∨ closing = [""]) (before : DocTag) :
    tagsFrom before (ts.flatMap (·.bareLines) ++ closing) = before :: ts.map (·.read) := by
  induction ts generalizing before with
  | nil => exact tagsFrom_closing before hclosing
  | cons t ts ih =>
    obtain ⟨ht, hts⟩ := List.forall_mem_cons.mp h
    obtain ⟨hhead, hlines, hmore⟩ := ht.tags_bareLines (ts.flatMap (·.bareLines) ++ closing)
    rw [List.flatMap_cons, hlines, List.append_assoc, List.cons_append, tagsFrom, hhead]
    show before :: tagsFrom ⟨t.name, t.first.text⟩
      (t.more.map (·.text) ++ (ts.flatMap (·.bareLines) ++ closing)) = _
    rw [hmore, ih hts]
    rfl

theorem tagsOf_written (h : ∀ t ∈ ts, t.IsPlain) {closing : List String}
    (hclosing : closing = [] ∨ closing = [""]) :
    tagsOf (ts.flatMap (·.bareLines) ++ closing) = ts.map (·.read) := by
  cases ts with
  | nil => rcases hclosing with rfl | rfl <;> rfl
  | cons t ts =>
    obtain ⟨ht, hts⟩ := List.forall_mem_cons.mp h
    obtain ⟨hhead, hlines, hmore⟩ := ht.tags_bareLines (ts.flatMap (·.bareLines) ++ closing)
    rw [List.flatMap_cons, hlines, List.append_assoc, List.cons_append, tagsOf, hhead]
    show tagsFrom ⟨t.name, t.first.text⟩
      (t.more.map (·.text) ++ (ts.flatMap (·.bareLines) ++ closing)) = _
    rw [hmore, tagsFrom_written hts hclosing]
    rfl

/-- The value of a tag is trimmed. -/
theorem IsPlain.strip_value (h : t.IsPlain) : strip t.value = t.value := by
  have hlines : ∀ l ∈ ((t.first :: t.more).map (·.text)).filter (!·.isEmpty),
      IsTrimmed l.toList ∧ l ≠ "" := by
    intro line hline
    obtain ⟨hmem, hempty⟩ := List.mem_filter.mp hline
    refine ⟨?_, by simpa using hempty⟩
    obtain ⟨l, hl, rfl⟩ := List.mem_map.mp hmem
    rcases List.mem_cons.mp hl with rfl | hmore
    · exact h.first.trimmed
    · exact (h.more l hmore).1.trimmed
  refine strip_of_isTrimmed (Lines.isTrimmed_joined (fun l hl => (hlines l hl).1) ?_ ?_)
  · exact fun l hl => (hlines l (List.mem_of_head? hl)).2
  · exact fun l hl => (hlines l (List.mem_of_getLast? hl)).2

end WrittenTag

/-! ## Comments -/

namespace WrittenComment

variable {c : WrittenComment}

/-- The summary as it is read. -/
def summaryLines (c : WrittenComment) : List String := c.summary.map (·.text)

theorem IsPlain.map_stripEnd (h : c.IsPlain) :
    c.lines.map (fun l => stripEnd l.text) = c.summaryLines ++ c.tags.flatMap (·.bareLines) := by
  rw [lines, List.map_append, List.map_flatMap]
  refine congrArg (· ++ _) (List.map_congr_left fun l hl => ?_)
  exact stripEnd_of_isTrimmed (h.summary l hl).1.trimmed

theorem IsPlain.tagOfLine?_summary (h : c.IsPlain) :
    ∀ l ∈ "" :: c.summaryLines, tagOfLine? l = none := by
  refine List.forall_mem_cons.mpr ⟨rfl, fun line hline => ?_⟩
  obtain ⟨l, hl, rfl⟩ := List.mem_map.mp hline
  exact tagOfLine?_eq_none (h.summary l hl).2

theorem IsPlain.isTrimmed_summary (h : c.IsPlain) :
    IsTrimmed (String.intercalate "\n" c.summaryLines).toList := by
  refine Lines.isTrimmed_joined (fun line hline => ?_) (fun line hline => ?_) fun line hline => ?_
  · obtain ⟨l, hl, rfl⟩ := List.mem_map.mp hline
    exact (h.summary l hl).1.trimmed
  · rw [summaryLines, List.head?_map] at hline
    obtain ⟨l, hl, rfl⟩ := Option.map_eq_some_iff.mp hline
    exact h.summary_first l hl
  · rw [summaryLines, List.getLast?_map] at hline
    obtain ⟨l, hl, rfl⟩ := Option.map_eq_some_iff.mp hline
    exact h.summary_last l hl

/-- The lines before the first tag are those of the summary. -/
theorem IsPlain.takeWhile_summary (h : c.IsPlain) {closing : List String}
    (hclosing : closing = [] ∨ closing = [""]) :
    ∃ after, (after = [] ∨ after = [""])
      ∧ (("" :: c.summaryLines) ++ (c.tags.flatMap (·.bareLines) ++ closing)).takeWhile
          (fun line => (tagOfLine? line).isNone) = "" :: c.summaryLines ++ after := by
  rw [List.takeWhile_append_of_pos fun line hline => by rw [h.tagOfLine?_summary line hline]; rfl]
  refine ⟨_, ?_, rfl⟩
  cases htags : c.tags with
  | nil => rcases hclosing with rfl | rfl <;> decide
  | cons t ts =>
    have ht : t.IsPlain := h.tags t (htags ▸ List.mem_cons_self ..)
    obtain ⟨hhead, hlines, -⟩ := ht.tags_bareLines []
    rw [List.flatMap_cons, hlines, List.append_assoc, List.cons_append,
      List.takeWhile_cons_of_neg (by rw [hhead]; exact Bool.false_ne_true)]
    exact .inl rfl

theorem IsPlain.ofText_text (h : c.IsPlain) :
    ofText c.text = ⟨String.intercalate "\n" c.summaryLines, c.tags.map (·.read)⟩ := by
  obtain ⟨closing, hclosing, hlines⟩ := h.bareLines
  rw [h.map_stripEnd] at hlines
  have hparts := hlines.trans (List.append_assoc ("" :: c.summaryLines) _ _)
  obtain ⟨after, hafter, hsummary⟩ := h.takeWhile_summary hclosing
  have hvalues : (c.tags.map (·.read)).map (fun t => { t with value := strip t.value })
      = c.tags.map (·.read) := by
    rw [List.map_map]
    refine List.map_congr_left fun t ht => ?_
    rw [Function.comp_apply, WrittenTag.read, (h.tags t ht).strip_value]
  unfold ofText
  rw [hparts]
  dsimp only
  rw [hsummary, tagsOf_append h.tagOfLine?_summary, WrittenTag.tagsOf_written h.tags hclosing,
    strip_framed h.isTrimmed_summary hafter, hvalues]

end WrittenComment

/-- A comment says what it was written from, and the value of its first `var` tag is the one that
is written first. -/
theorem ofComment_written (c : WrittenComment) (h : c.IsPlain) :
    ofComment (some c.text)
        = ⟨String.intercalate "\n" (c.summary.map (·.text)),
            c.tags.map fun t => ⟨t.name, t.value⟩⟩
      ∧ (ofComment (some c.text)).varValue?
        = (c.tags.find? (·.name == "var")).map (·.value) := by
  have hempty : c.text.isEmpty = false := by
    refine Bool.eq_false_iff.mpr fun hempty => ?_
    have hnil := congrArg String.toList (String.isEmpty_iff.mp hempty)
    rw [WrittenComment.text, String.toList_append, String.toList_append] at hnil
    cases hnil
  have hread : ofComment (some c.text)
      = ⟨String.intercalate "\n" c.summaryLines, c.tags.map (·.read)⟩ := by
    rw [ofComment, hempty]
    exact h.ofText_text
  refine ⟨hread, ?_⟩
  rw [hread, varValue?, named, List.head?_filter, List.find?_map, Option.map_map]
  rfl

/-- A comment whose summary begins with a star and has an empty line in it, and whose tags have
empty first lines. -/
def starredComment : WrittenComment :=
  ⟨"\n", [⟨" ", "* An owner", "\r\n"⟩, ⟨"", "", "\n"⟩, ⟨"\t ", "@ work", "\n"⟩],
    [⟨"see", ⟨" ", "", "\n"⟩, [⟨" ", "Who", "\n"⟩]⟩, ⟨"var", ⟨" ", "string", "\n"⟩, []⟩,
      ⟨"var", ⟨"", "", "\n"⟩, []⟩], " "⟩

/-- It is read whatever blanks are before its stars, and its first `var` tag counts. -/
theorem ofComment_written_starred :
    starredComment.IsPlain
      ∧ starredComment.text
          = "/**\n * * An owner\r\n* \n\t * @ work\n * @see \n * Who\n * @var string\n* @var \n */"
      ∧ ofComment (some starredComment.text)
          = ⟨"* An owner\n\n@ work", [⟨"see", "Who"⟩, ⟨"var", "string"⟩, ⟨"var", ""⟩]⟩
      ∧ (ofComment (some starredComment.text)).varValue? = some "string" := by
  have hfeed : Lines.IsEnd "\n" := by
    have hsingle : "\n" = String.singleton '\n' := by decide
    rw [hsingle]
    exact .single (by decide)
  have hgap {s : String} (h : s.toList.all (fun c => isBlank c && !Lines.isBreak c) = true) :
      ∀ c ∈ s.toList, isBlank c = true ∧ Lines.isBreak c = false := by
    intro c hc
    simpa using List.all_eq_true.mp h c hc
  have hplain {l : WrittenLine}
      (hindent : l.indent.toList.all (fun c => isBlank c && !Lines.isBreak c) = true)
      (htext : l.text.toList.all (!Lines.isBreak ·) = true) (hend : Lines.IsEnd l.ending)
      (hstrip : strip l.text = l.text) : l.IsPlain := by
    refine ⟨⟨hgap hindent, fun c hc => ?_, hend⟩, hstrip ▸ isTrimmed_strip l.text⟩
    simpa using List.all_eq_true.mp htext c hc
  have hsummary : ∀ l ∈ starredComment.summary, l.IsPlain ∧ beginsTag l.text = false :=
    List.forall_mem_cons.mpr ⟨⟨hplain (by decide) (by decide) .pair (by decide), by decide⟩,
      List.forall_mem_cons.mpr ⟨⟨hplain (by decide) (by decide) hfeed (by decide), by decide⟩,
        List.forall_mem_singleton.mpr
          ⟨hplain (by decide) (by decide) hfeed (by decide), by decide⟩⟩⟩
  have hmore : ∀ l ∈ [⟨" ", "Who", "\n"⟩], WrittenLine.IsPlain l ∧ beginsTag l.text = false :=
    List.forall_mem_singleton.mpr ⟨hplain (by decide) (by decide) hfeed (by decide), by decide⟩
  have hnone : ∀ l ∈ ([] : List WrittenLine), l.IsPlain ∧ beginsTag l.text = false := by
    intro l hl
    cases hl
  have hsee : WrittenLine.IsPlain ⟨" ", "", "\n"⟩ :=
    hplain (by decide) (by decide) hfeed (by decide)
  have hstring : WrittenLine.IsPlain ⟨" ", "string", "\n"⟩ :=
    hplain (by decide) (by decide) hfeed (by decide)
  have hlast : WrittenLine.IsPlain ⟨"", "", "\n"⟩ :=
    hplain (by decide) (by decide) hfeed (by decide)
  have htags : ∀ t ∈ starredComment.tags, t.IsPlain :=
    List.forall_mem_cons.mpr ⟨⟨by decide, List.all_eq_true.mp (by decide), hsee, hmore⟩,
      List.forall_mem_cons.mpr ⟨⟨by decide, List.all_eq_true.mp (by decide), hstring, hnone⟩,
        List.forall_mem_singleton.mpr
          ⟨by decide, List.all_eq_true.mp (by decide), hlast, hnone⟩⟩⟩
  have hwritten : starredComment.IsPlain := by
    refine ⟨hfeed, hsummary, ?_, ?_, htags, hgap (by decide)⟩
    · intro l hl
      cases hl
      decide
    · intro l hl
      cases hl
      decide
  obtain ⟨hread, hvar⟩ := ofComment_written starredComment hwritten
  exact ⟨hwritten, by decide, hread.trans (by decide), hvar.trans (by decide)⟩

end StaticReflection.DocBlock
