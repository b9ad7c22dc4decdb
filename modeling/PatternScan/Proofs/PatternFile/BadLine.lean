import Mathlib.Data.List.Forall2
import Mathlib.Data.List.ReduceOption
import PatternScan.Proofs.Builder
import PatternScan.Proofs.PatternFile

/-!
# The first bad line of a file

A line of a hexadecimal file is bad if its bytes are no text (`Utf8.encode` of none), or if the text
that stands in it between white space is neither empty nor an even number of digits (`BadLine`).
`Carries` says what the other lines hold, `Blames` which error a bad line makes. Reading goes on as
long as lines carry something (`readHexLines_of_carries`) and stops at the first bad one
(`readHexLines_of_blames`), so that a file with a bad line adds the patterns in front of that line
and no others (`Builder.addFile_firstBadLine`).
-/

namespace PatternScan

namespace PatternFile

open Text

/-- The text that stands in a line: there is white space around it, and it neither starts nor ends
with any. -/
def StandsIn (text : List Char) (line : List UInt8) : Prop :=
  ∃ before after, line = Utf8.encode (before ++ text ++ after) ∧ (∀ c ∈ before, isBlank c) ∧
    (∀ c ∈ after, isBlank c) ∧ (∀ c ∈ text.head?, isBlank c = false) ∧
    ∀ c ∈ text.getLast?, isBlank c = false

/-- The bytes of a line encode no text. -/
def NoText (line : List UInt8) : Prop :=
  ∀ cs, line ≠ Utf8.encode cs

/-- A line that is neither blank nor a pattern. -/
def BadLine (line : List UInt8) : Prop :=
  NoText line ∨ ∃ text, StandsIn text line ∧ text ≠ [] ∧
    ¬((Utf8.encode text).length % 2 = 0 ∧ ∀ d ∈ Utf8.encode text, Hex.IsDigitByte d)

/-- What a line that is not bad holds: nothing, or a pattern. -/
inductive Carries : List UInt8 → Option Pattern → Prop
  | blank {line : List UInt8} : Form.hex.Blank line → Carries line none
  | pattern {p : Pattern} {line : List UInt8} : p ≠ [] → Form.hex.IsLine p line →
    Carries line (some p)

/-- The error of a bad line with a number. -/
inductive Blames (number : Nat) (line : List UInt8) : Error → Prop
  | noText : NoText line → Blames number line (.io "stream did not contain valid UTF-8")
  | oddLength {text : List Char} : StandsIn text line → (Utf8.encode text).length % 2 = 1 →
    Blames number line (.invalidHex number .oddLength)
  | badByte {text : List Char} {b : UInt8} {before after : List UInt8} : StandsIn text line →
    (Utf8.encode text).length % 2 = 0 → Utf8.encode text = before ++ b :: after →
    (∀ d ∈ before, Hex.IsDigitByte d) → ¬Hex.IsDigitByte b →
    Blames number line (.invalidHex number (.invalidByte b before.length))

/-! ## One line -/

variable {line : List UInt8} {o : Option Pattern} {number : Nat} {e : Error}

theorem hexLine_of_carries (h : Carries line o) (number : Nat) : hexLine number line = .ok o := by
  cases h with
  | blank h => exact hexLine_blank number h
  | pattern hne h => exact (hexLine_line number hne h).2

theorem hexLine_of_standsIn {text : List Char} (h : StandsIn text line) {cause : Hex.Defect}
    (hcause : Hex.decode (Utf8.encode text) = .error cause) :
    hexLine number line = .error (.invalidHex number cause) := by
  obtain ⟨before, after, rfl, hbefore, hafter, hfirst, hlast⟩ := h
  have htrim : trim isBlank (before ++ text ++ after) = text :=
    trim_append hbefore hfirst hlast hafter
  have hempty : ¬(Utf8.encode text).isEmpty := fun hempty => by
    rw [List.isEmpty_iff.1 hempty] at hcause
    exact nomatch hcause
  unfold hexLine
  rw [Utf8.decode?_encode]
  simp only [htrim, if_neg hempty, hcause]

theorem hexLine_of_blames (h : Blames number line e) : hexLine number line = .error e := by
  cases h with
  | noText h =>
    have hdecode : Utf8.decode? line = none :=
      Option.eq_none_iff_forall_ne_some.2 fun cs hcs => h cs (Utf8.decode?_eq_some_iff.1 hcs)
    unfold hexLine
    rw [hdecode]
  | oddLength h hodd => exact hexLine_of_standsIn h (Hex.decode_of_odd hodd)
  | badByte h heven htext hbefore hb =>
    refine hexLine_of_standsIn h ?_
    rw [htext] at heven ⊢
    exact Hex.decode_badByte heven hbefore hb

theorem exists_blames (h : BadLine line) (number : Nat) : ∃ e, Blames number line e := by
  rcases h with h | ⟨text, htext, -, hform⟩
  · exact ⟨_, .noText h⟩
  rcases Nat.mod_two_eq_zero_or_one (Utf8.encode text).length with heven | hodd
  · obtain ⟨before, b, after, hds, hbefore, hb⟩ := Hex.exists_badByte fun h => hform ⟨heven, h⟩
    exact ⟨_, .badByte htext heven hds hbefore hb⟩
  · exact ⟨_, .oddLength htext hodd⟩

theorem exists_standsIn (cs : List Char) : ∃ text, StandsIn text (Utf8.encode cs) := by
  obtain ⟨before, after, hcs, h⟩ := exists_trim isBlank cs
  exact ⟨trim isBlank cs, before, after, congrArg Utf8.encode hcs, h⟩

theorem exists_carries (hline : 0x0A ∉ line) (h : ¬BadLine line) : ∃ o, Carries line o := by
  obtain ⟨hcs, hform⟩ := not_or.1 h
  obtain ⟨cs, rfl⟩ : ∃ cs, line = Utf8.encode cs := not_forall_not.1 hcs
  obtain ⟨text, htext⟩ := exists_standsIn cs
  have hform : text ≠ [] → _ := fun hne => not_not.1 fun hbad => hform ⟨text, htext, hne, hbad⟩
  obtain ⟨before, after, hcs, hbefore, hafter, -⟩ := htext
  rw [hcs] at hline ⊢
  have hnewline : ∀ c ∈ before ++ text ++ after, c ≠ '\n' := fun c hc hn =>
    hline (List.mem_flatMap.2 ⟨c, hc, hn ▸ by decide⟩)
  simp only [List.forall_mem_append] at hnewline
  obtain ⟨⟨hbefore', -⟩, hafter'⟩ := hnewline
  by_cases hempty : text = []
  · subst hempty
    refine ⟨none, .blank ⟨before ++ after, by rw [List.append_nil], fun c hc => ?_⟩⟩
    rcases List.mem_append.1 hc with hc | hc
    · exact ⟨hbefore c hc, hbefore' c hc⟩
    · exact ⟨hafter c hc, hafter' c hc⟩
  · obtain ⟨heven, hdigits⟩ := hform hempty
    obtain ⟨p, digits, hspells, htext⟩ := Hex.exists_spells heven hdigits
    obtain rfl := Utf8.encode_injective htext
    have hne : p ≠ [] := by
      rintro rfl
      cases hspells
      exact hempty rfl
    refine ⟨some p, .pattern hne ⟨_, _, _, ⟨before, rfl, fun c hc => ?_⟩, ⟨text, hspells, rfl⟩,
      ⟨after, rfl, fun c hc => ?_⟩, ?_⟩⟩
    · exact ⟨hbefore c hc, hbefore' c hc⟩
    · exact ⟨hafter c hc, hafter' c hc⟩
    · rw [Utf8.encode_append, Utf8.encode_append]

/-- A line carries one thing. -/
theorem rightUnique_carries : Relator.RightUnique Carries := fun _ _ _ h h' =>
  Except.ok.inj ((hexLine_of_carries h 1).symm.trans (hexLine_of_carries h' 1))

/-- A line has one error. -/
theorem Blames.unique {e' : Error} (h : Blames number line e) (h' : Blames number line e') :
    e = e' :=
  Except.error.inj ((hexLine_of_blames h).symm.trans (hexLine_of_blames h'))

theorem not_badLine_of_carries (h : Carries line o) : ¬BadLine line := by
  intro hbad
  obtain ⟨e, he⟩ := exists_blames hbad 1
  exact nomatch (hexLine_of_carries h 1).symm.trans (hexLine_of_blames he)

/-! ## Many lines -/

theorem readHexLines_of_carries {ls : List (List UInt8)} {held : List (Option Pattern)}
    (h : List.Forall₂ Carries ls held) (number : Nat) :
    readHexLines number ls = { patterns := held.reduceOption } := by
  induction h generalizing number with
  | nil => rfl
  | cons hline _ ih =>
    rename_i o _ _ _
    rw [readHexLines, hexLine_of_carries hline]
    cases o with
    | none => rw [List.reduceOption_cons_of_none]; exact ih _
    | some p => simp only [List.reduceOption_cons_of_some, ih]

/-- **Reading stops at the first bad line.** -/
theorem readHexLines_of_blames {before after : List (List UInt8)} {held : List (Option Pattern)}
    (hbefore : List.Forall₂ Carries before held) (h : Blames (before.length + number) line e) :
    readHexLines number (before ++ line :: after) =
      { patterns := held.reduceOption, failure := some e } := by
  have hread := readHexLines_of_carries hbefore number
  rw [readHexLines_append (by rw [hread]), hread, Nat.add_comm number, readHexLines,
    hexLine_of_blames h]
  simp only [List.append_nil]

/-- No line has a line feed in it. -/
theorem not_mem_of_mem_lines {bytes : List UInt8} (h : line ∈ lines bytes) : 0x0A ∉ line := by
  unfold lines at h
  induction bytes generalizing line with
  | nil =>
    rw [List.splitOn_nil, List.mem_singleton] at h
    exact h ▸ List.not_mem_nil
  | cons b bytes ih =>
    rw [List.splitOn_cons_eq_if_modifyHead] at h
    split at h
    · rcases List.mem_cons.1 h with rfl | h
      · exact List.not_mem_nil
      · exact ih h
    · rename_i hb
      obtain ⟨first, rest, hlines⟩ := List.exists_cons_of_ne_nil (List.splitOn_ne_nil 0x0A bytes)
      rw [hlines] at h ih
      rcases List.mem_cons.1 h with rfl | h
      · intro hmem
        rcases List.mem_cons.1 hmem with rfl | hmem
        · exact hb rfl
        · exact ih List.mem_cons_self hmem
      · exact ih (List.mem_cons_of_mem _ h)

theorem exists_forall₂_carries {ls : List (List UInt8)} (hls : ∀ l ∈ ls, 0x0A ∉ l)
    (hgood : ∀ l ∈ ls, ¬BadLine l) : ∃ held, List.Forall₂ Carries ls held := by
  induction ls with
  | nil => exact ⟨[], .nil⟩
  | cons l ls ih =>
    obtain ⟨hl, hls⟩ := List.forall_mem_cons.1 hls
    obtain ⟨hl', hgood⟩ := List.forall_mem_cons.1 hgood
    obtain ⟨o, ho⟩ := exists_carries hl hl'
    obtain ⟨held, hheld⟩ := ih hls hgood
    exact ⟨o :: held, .cons ho hheld⟩

theorem ne_nil_of_mem_reduceOption {ls : List (List UInt8)} {held : List (Option Pattern)}
    (h : List.Forall₂ Carries ls held) : ∀ p ∈ held.reduceOption, p ≠ [] := by
  induction h with
  | nil => exact List.forall_mem_nil _
  | cons hline _ ih =>
    cases hline with
    | blank => rwa [List.reduceOption_cons_of_none]
    | pattern hne =>
      rw [List.reduceOption_cons_of_some]
      exact List.forall_mem_cons.2 ⟨hne, ih⟩

/-! ## A file -/

variable {bytes : List UInt8}

theorem read_of_good (hgood : ∀ line ∈ lines bytes, ¬BadLine line) :
    ∃ held, List.Forall₂ Carries (lines bytes) held ∧
      read .hex bytes = { patterns := held.reduceOption } := by
  obtain ⟨held, hheld⟩ := exists_forall₂_carries (fun _ => not_mem_of_mem_lines) hgood
  exact ⟨held, hheld, readHexLines_of_carries hheld 1⟩

theorem read_of_firstBadLine {before after : List (List UInt8)}
    (hlines : lines bytes = before ++ line :: after) (hgood : ∀ l ∈ before, ¬BadLine l)
    (hbad : BadLine line) : ∃ held e, List.Forall₂ Carries before held ∧
      Blames (before.length + 1) line e ∧
      read .hex bytes = { patterns := held.reduceOption, failure := some e } := by
  have hmem : ∀ l ∈ before, l ∈ lines bytes := fun l hl => hlines ▸ List.mem_append_left _ hl
  obtain ⟨held, hheld⟩ :=
    exists_forall₂_carries (fun l hl => not_mem_of_mem_lines (hmem l hl)) hgood
  obtain ⟨e, he⟩ := exists_blames hbad (before.length + 1)
  refine ⟨held, e, hheld, he, ?_⟩
  rw [PatternFile.read, readHex, hlines, readHexLines_of_blames hheld he]

end PatternFile

namespace Builder

open PatternFile

/-- **A hexadecimal file is read up to its first bad line.** Without one all its patterns are added,
and the result is their number, which is that of the lines that are not blank. With one the result
is the error of that line under its number, and the patterns of the lines before it have been added.
-/
theorem addFile_firstBadLine (b : Builder) (bytes : List UInt8) :
    ((∀ line ∈ lines bytes, ¬BadLine line) → ∃ held, List.Forall₂ Carries (lines bytes) held ∧
      b.addFile .hex bytes = (.ok (held.countP (·.isSome)), b.addAll held.reduceOption) ∧
      (b.addFile .hex bytes).2.patternCount = b.patternCount + held.countP (·.isSome)) ∧
    ∀ before line after, lines bytes = before ++ line :: after → (∀ l ∈ before, ¬BadLine l) →
      BadLine line → ∃ held e, List.Forall₂ Carries before held ∧
        Blames (before.length + 1) line e ∧
        b.addFile .hex bytes = (.error e, b.addAll held.reduceOption) := by
  constructor
  · intro hgood
    obtain ⟨held, hheld, hread⟩ := read_of_good hgood
    have hcount : held.reduceOption.length = held.countP (·.isSome) := by
      rw [List.reduceOption_length_eq, List.countP_eq_length_filter]
    have hadd : b.addFile .hex bytes =
        (.ok (held.countP (·.isSome)), b.addAll held.reduceOption) := by
      rw [addFile, hread]
      simp only [hcount]
    refine ⟨held, hheld, hadd, ?_⟩
    rw [hadd, ← hcount]
    exact patternCount_addAll b (ne_nil_of_mem_reduceOption hheld)
  · intro before line after hlines hgood hbad
    obtain ⟨held, e, hheld, he, hread⟩ := read_of_firstBadLine hlines hgood hbad
    refine ⟨held, e, hheld, he, ?_⟩
    rw [addFile, hread]

/-- The third line has a `g` in it, and the fourth is no text. Without those lines the file is good;
what follows its last line feed is a blank line. -/
theorem addFile_firstBadLine_third :
    ({} : Builder).addFile .hex [0x61, 0x62, 0x0D, 0x0A, 0x20, 0x0A, 0x30, 0x67, 0x0A, 0xFF] =
        (.error (.invalidHex 3 (.invalidByte 0x67 1)), ({} : Builder).addAll [[0xAB]]) ∧
      ({} : Builder).addFile .hex [0x61, 0x62, 0x0D, 0x0A, 0x20, 0x0A] =
        (.ok 1, ({} : Builder).addAll [[0xAB]]) := by
  have hempty : Form.hex.Blank [] := ⟨[], rfl, nofun⟩
  have hpattern : Carries [0x61, 0x62, 0x0D] (some [0xAB]) :=
    .pattern (List.cons_ne_nil _ _) ⟨[], _, [0x0D], hempty,
      ⟨['a', 'b'], .cons (.inl rfl) (.inl rfl) .nil, rfl⟩,
      ⟨['\r'], rfl, List.forall_mem_singleton.2 ⟨rfl, by decide⟩⟩, rfl⟩
  have hblank : Carries [0x20] none :=
    .blank ⟨[' '], rfl, List.forall_mem_singleton.2 ⟨rfl, by decide⟩⟩
  have hlast : Carries [] none := .blank hempty
  have hstands : StandsIn ['0', 'g'] [0x30, 0x67] :=
    ⟨[], [], rfl, nofun, nofun, fun _ => by rintro ⟨⟩; rfl, fun _ => by rintro ⟨⟩; rfl⟩
  have hdigit : ¬Text.Hex.IsDigitByte 0x67 := by unfold Text.Hex.IsDigitByte; decide
  have hbad : BadLine [0x30, 0x67] :=
    .inr ⟨_, hstands, List.cons_ne_nil _ _, fun h => hdigit (h.2 0x67 (by decide))⟩
  have hsplit : Text.Utf8.encode ['0', 'g'] = [0x30] ++ 0x67 :: [] := rfl
  have hblames : Blames 3 [0x30, 0x67] (.invalidHex 3 (.invalidByte 0x67 1)) :=
    .badByte hstands rfl hsplit
      (List.forall_mem_singleton.2 (by unfold Text.Hex.IsDigitByte; decide)) hdigit
  have hgood : ∀ l ∈ [[0x61, 0x62, 0x0D], [0x20], []], ¬BadLine l := by
    simp only [List.forall_mem_cons]
    exact ⟨not_badLine_of_carries hpattern, not_badLine_of_carries hblank,
      not_badLine_of_carries hlast, nofun⟩
  constructor
  · obtain ⟨held, e, hheld, he, hadd⟩ := (addFile_firstBadLine {}
      [0x61, 0x62, 0x0D, 0x0A, 0x20, 0x0A, 0x30, 0x67, 0x0A, 0xFF]).2
      [[0x61, 0x62, 0x0D], [0x20]] [0x30, 0x67] [[0xFF]] (by decide)
      (fun l hl => hgood l (List.mem_append_left [[]] hl)) hbad
    rw [hadd, he.unique hblames,
      rightUnique_carries.forall₂ hheld (.cons hpattern (.cons hblank .nil))]
    rfl
  · have hlines : lines [0x61, 0x62, 0x0D, 0x0A, 0x20, 0x0A] =
        [[0x61, 0x62, 0x0D], [0x20], []] := by decide
    obtain ⟨held, hheld, hadd, -⟩ := (addFile_firstBadLine {}
      [0x61, 0x62, 0x0D, 0x0A, 0x20, 0x0A]).1 (by rw [hlines]; exact hgood)
    rw [hlines] at hheld
    rw [hadd, rightUnique_carries.forall₂ hheld (.cons hpattern (.cons hblank (.cons hlast .nil)))]
    rfl

end Builder

end PatternScan
