import PatternScan.PatternFile
import PatternScan.Proofs.Text.Hex

/-!
# Files of patterns

`Form.IsFile` says which files hold a list of patterns: every pattern stands in a line of its own
with white space around it, and lines of white space may be anywhere. Reading a line takes off what
stands around the pattern (`yields_line`), reading a file goes line by line (`yields_append`), so
that a file of either form adds the patterns of the list (`Builder.addFile_of_isFile`).
-/

namespace PatternScan

namespace Text

/-! ## Trimming -/

section Trim

variable {α : Type} {p : α → Bool} {before xs after : List α}

theorem dropWhile_of_head? (h : ∀ x ∈ xs.head?, p x = false) : xs.dropWhile p = xs := by
  cases xs with
  | nil => rfl
  | cons x xs => exact List.dropWhile_cons_of_neg (Bool.eq_false_iff.1 (h x rfl))

theorem trimEnd_append (hafter : ∀ x ∈ after, p x) (hlast : ∀ x ∈ xs.getLast?, p x = false) :
    trimEnd p (xs ++ after) = xs := by
  have hreverse : ∀ x ∈ after.reverse, p x := fun x hx => hafter x (List.mem_reverse.1 hx)
  rw [trimEnd, List.reverse_append, List.dropWhile_append_of_pos hreverse, dropWhile_of_head?,
    List.reverse_reverse]
  rwa [List.head?_reverse]

/-- **Trimming takes off what is around**, and nothing of what starts and ends otherwise. -/
theorem trim_append (hbefore : ∀ x ∈ before, p x) (hfirst : ∀ x ∈ xs.head?, p x = false)
    (hlast : ∀ x ∈ xs.getLast?, p x = false) (hafter : ∀ x ∈ after, p x) :
    trim p (before ++ xs ++ after) = xs := by
  rw [trim, List.append_assoc, List.dropWhile_append_of_pos hbefore]
  cases xs with
  | nil =>
    rw [List.nil_append, ← List.append_nil after, List.dropWhile_append_of_pos hafter]
    rfl
  | cons x xs =>
    have hkeep : (x :: xs ++ after).dropWhile p = x :: xs ++ after := dropWhile_of_head? hfirst
    rw [hkeep, trimEnd_append hafter hlast]

theorem trim_eq_nil (h : ∀ x ∈ xs, p x) : trim p xs = [] := by
  have : trim p (xs ++ [] ++ []) = [] := trim_append h nofun nofun nofun
  rwa [List.append_nil, List.append_nil] at this

theorem head?_dropWhile (p : α → Bool) (xs : List α) :
    ∀ x ∈ (xs.dropWhile p).head?, p x = false := by
  intro x hx
  have hfirst := List.head?_dropWhile_not p xs
  rwa [hx] at hfirst

/-- **Trimming only takes off what is around.** -/
theorem exists_trim (p : α → Bool) (xs : List α) : ∃ before after,
    xs = before ++ trim p xs ++ after ∧ (∀ x ∈ before, p x) ∧ (∀ x ∈ after, p x) ∧
      (∀ x ∈ (trim p xs).head?, p x = false) ∧ ∀ x ∈ (trim p xs).getLast?, p x = false := by
  let kept := xs.dropWhile p
  let after := (kept.reverse.takeWhile p).reverse
  have hkept : kept = trim p xs ++ after := by
    rw [trim, trimEnd, ← List.reverse_append, List.takeWhile_append_dropWhile, List.reverse_reverse]
  have hbefore : ∀ ys : List α, ∀ x ∈ ys.takeWhile p, p x := fun ys =>
    List.all_eq_true.1 List.all_takeWhile
  refine ⟨xs.takeWhile p, after, ?_, hbefore xs, fun x hx => ?_, fun x hx => ?_, fun x hx => ?_⟩
  · rw [List.append_assoc, ← hkept, List.takeWhile_append_dropWhile]
  · exact hbefore _ x (List.mem_reverse.1 hx)
  · refine head?_dropWhile p xs x ?_
    show x ∈ kept.head?
    rw [hkept, List.head?_append, hx]
    rfl
  · rw [trim, trimEnd, List.getLast?_reverse] at hx
    exact head?_dropWhile p _ x hx

end Trim

end Text

namespace PatternFile

open Text

/-! ## Files -/

/-- Bytes that hold nothing: ASCII white space, in which line feeds only make further blank lines,
or the encoding of white space other than line feeds. -/
def Form.Blank : Form → List UInt8 → Prop
  | .literal, bytes => ∀ b ∈ bytes, isAsciiBlank b
  | .hex, bytes => ∃ cs, bytes = Utf8.encode cs ∧ ∀ c ∈ cs, isBlank c ∧ c ≠ '\n'

/-- Bytes that hold a pattern and nothing around it: the pattern itself, or one of its hexadecimal
forms. -/
def Form.Writes : Form → Pattern → List UInt8 → Prop
  | .literal, p, bytes => bytes = p
  | .hex, p, bytes => ∃ digits, Hex.Spells p digits ∧ bytes = Utf8.encode digits

/-- A pattern that is not changed by being written down: literally, it may neither contain a line
feed nor start or end with white space. -/
def Form.CanWrite : Form → Pattern → Prop
  | .literal, p => 0x0A ∉ p ∧ (∀ b ∈ p.head?, isAsciiBlank b = false) ∧
    ∀ b ∈ p.getLast?, isAsciiBlank b = false
  | .hex, _ => True

/-- A line with a pattern, and white space around it. -/
def Form.IsLine (form : Form) (p : Pattern) (line : List UInt8) : Prop :=
  ∃ before bytes after, form.Blank before ∧ form.Writes p bytes ∧ form.Blank after ∧
    line = before ++ bytes ++ after

/-- A file with a list of patterns, one a line. The last line need not end in a line feed; after
one, an empty line is the last. -/
inductive Form.IsFile (form : Form) : List Pattern → List UInt8 → Prop
  | lastBlank {line : List UInt8} : form.Blank line → form.IsFile [] line
  | lastLine {p : Pattern} {line : List UInt8} : form.IsLine p line → form.IsFile [p] line
  | blank {ps : List Pattern} {line rest : List UInt8} : form.Blank line → form.IsFile ps rest →
    form.IsFile ps (line ++ 0x0A :: rest)
  | line {p : Pattern} {ps : List Pattern} {line rest : List UInt8} : form.IsLine p line →
    form.IsFile ps rest → form.IsFile (p :: ps) (line ++ 0x0A :: rest)

/-! ## Literal lines -/

section Literal

variable {bs cs : List UInt8} {b : UInt8}

theorem lines_append (bs cs : List UInt8) : lines (bs ++ 0x0A :: cs) = lines bs ++ lines cs :=
  List.splitOn_append_cons_self bs cs

theorem lines_of_not_mem (h : 0x0A ∉ bs) : lines bs = [bs] :=
  List.splitOn_eq_singleton h

theorem readLiteral_append (bs cs : List UInt8) : readLiteral (bs ++ 0x0A :: cs) =
    { patterns := (readLiteral bs).patterns ++ (readLiteral cs).patterns } := by
  simp only [readLiteral, lines_append, List.map_append, List.filter_append]

theorem trim_cons_blank (hb : isAsciiBlank b) (bs : List UInt8) :
    trim isAsciiBlank (b :: bs) = trim isAsciiBlank bs := by
  rw [trim, List.dropWhile_cons_of_pos hb, trim]

/-- White space in front of a file is not read. -/
theorem readLiteral_cons_blank (hb : isAsciiBlank b) (bs : List UInt8) :
    readLiteral (b :: bs) = readLiteral bs := by
  unfold readLiteral lines
  rw [List.splitOn_cons_eq_if_modifyHead]
  split
  · rfl
  · obtain ⟨line, rest, hlines⟩ := List.exists_cons_of_ne_nil (List.splitOn_ne_nil 0x0A bs)
    rw [hlines, List.modifyHead_cons, List.map_cons, List.map_cons, trim_cons_blank hb]

theorem readLiteral_blank_append (h : Form.literal.Blank cs) (bs : List UInt8) :
    readLiteral (cs ++ bs) = readLiteral bs := by
  induction cs with
  | nil => rfl
  | cons c cs ih =>
    obtain ⟨hc, hcs⟩ := List.forall_mem_cons.1 h
    rw [List.cons_append, readLiteral_cons_blank hc, ih hcs]

theorem readLiteral_blank (h : Form.literal.Blank bs) : readLiteral bs = { patterns := [] } := by
  have := readLiteral_blank_append h []
  rwa [List.append_nil] at this

/-- The white space behind a pattern is cut where its first line feed stands: what is in front of
that is trimmed, and what is behind it are blank lines. -/
theorem readLiteral_line {p : Pattern} (hne : p ≠ []) (hp : Form.literal.CanWrite p)
    (h : Form.literal.IsLine p bs) : readLiteral bs = { patterns := [p] } := by
  obtain ⟨before, p, after, hbefore, rfl, hafter, rfl⟩ := h
  obtain ⟨hnewline, hfirst, hlast⟩ := hp
  rw [List.append_assoc, readLiteral_blank_append hbefore]
  have hline : ∀ cs, Form.literal.Blank cs → 0x0A ∉ cs →
      readLiteral (p ++ cs) = { patterns := [p] } := by
    intro cs hcs hmem
    have htrim : trim isAsciiBlank (p ++ cs) = p :=
      trim_append (List.forall_mem_nil _) hfirst hlast hcs
    rw [readLiteral, lines_of_not_mem fun h => (List.mem_append.1 h).elim hnewline hmem,
      List.map_singleton, htrim]
    cases p with
    | nil => exact absurd rfl hne
    | cons b p => rfl
  by_cases hmem : 0x0A ∈ after
  · obtain ⟨cs, rest, rfl, hcs⟩ := List.eq_append_cons_of_mem hmem
    obtain ⟨hblank, hrest⟩ := List.forall_mem_append.1 hafter
    have hrest : Form.literal.Blank rest := fun b hb => hrest b (List.mem_cons_of_mem _ hb)
    rw [← List.append_assoc, readLiteral_append, hline cs hblank hcs, readLiteral_blank hrest]
    rfl
  · exact hline after hafter hmem

end Literal

/-! ## Hexadecimal lines -/

section Hex

variable {line : List UInt8}

theorem not_mem_encode {cs : List Char} (h : ∀ c ∈ cs, c ≠ '\n') : 0x0A ∉ Utf8.encode cs := by
  intro hmem
  obtain ⟨c, hc, hcode⟩ := Utf8.exists_of_mem_encode hmem (by decide)
  exact h c hc (Char.toNat_inj.1 hcode)

theorem lines_of_blank (h : Form.hex.Blank line) : lines line = [line] := by
  obtain ⟨cs, rfl, hcs⟩ := h
  exact lines_of_not_mem (not_mem_encode fun c hc => (hcs c hc).2)

theorem hexLine_blank (number : Nat) (h : Form.hex.Blank line) :
    hexLine number line = .ok none := by
  obtain ⟨cs, rfl, hcs⟩ := h
  unfold hexLine
  rw [Utf8.decode?_encode]
  simp only [trim_eq_nil fun c hc => (hcs c hc).1]
  rfl

/-- The white space around the digits is not read. -/
theorem hexLine_encode (number : Nat) {p : Pattern} {before digits after : List Char} (hne : p ≠ [])
    (hbefore : ∀ c ∈ before, isBlank c) (hdigits : Hex.Spells p digits)
    (hafter : ∀ c ∈ after, isBlank c) :
    hexLine number (Utf8.encode (before ++ digits ++ after)) = .ok (some p) := by
  have htrim : trim isBlank (before ++ digits ++ after) = digits :=
    trim_append hbefore (fun c hc => hdigits.not_blank c (List.mem_of_mem_head? hc))
      (fun c hc => hdigits.not_blank c (List.mem_of_mem_getLast? hc)) hafter
  have hempty : ¬(Utf8.encode digits).isEmpty := fun hempty => by
    have hlength := hdigits.length
    rw [List.isEmpty_iff.1 hempty, List.length_nil] at hlength
    exact hne (List.length_eq_zero_iff.1 (by omega))
  unfold hexLine
  rw [Utf8.decode?_encode]
  simp only [htrim, if_neg hempty, Hex.decode_of_spells hdigits]

theorem hexLine_line (number : Nat) {p : Pattern} (hne : p ≠ []) (h : Form.hex.IsLine p line) :
    lines line = [line] ∧ hexLine number line = .ok (some p) := by
  obtain ⟨_, _, _, ⟨before, rfl, hbefore⟩, ⟨digits, hdigits, rfl⟩, ⟨after, rfl, hafter⟩, rfl⟩ := h
  rw [← Utf8.encode_append, ← Utf8.encode_append]
  constructor
  · refine lines_of_not_mem (not_mem_encode fun c hc => ?_)
    rcases List.mem_append.1 hc with hc | hc
    · rcases List.mem_append.1 hc with hc | hc
      · exact (hbefore c hc).2
      · rintro rfl
        exact absurd (hdigits.not_blank _ hc) (by decide)
    · exact (hafter c hc).2
  · exact hexLine_encode number hne (fun c hc => (hbefore c hc).1) hdigits fun c hc =>
      (hafter c hc).1

/-- Where the first lines are all good, reading goes on behind them. -/
theorem readHexLines_append {number : Nat} {ls : List (List UInt8)}
    (h : (readHexLines number ls).failure = none) (ls' : List (List UInt8)) :
    readHexLines number (ls ++ ls') =
      { readHexLines (number + ls.length) ls' with
        patterns := (readHexLines number ls).patterns ++
          (readHexLines (number + ls.length) ls').patterns } := by
  induction ls generalizing number with
  | nil => rfl
  | cons line ls ih =>
    rw [List.cons_append, List.length_cons, Nat.add_comm ls.length, ← Nat.add_assoc]
    cases hline : hexLine number line with
    | error e =>
      rw [readHexLines, hline] at h
      exact nomatch h
    | ok o =>
      cases o with
      | none =>
        simp only [readHexLines, hline] at h ⊢
        exact ih h
      | some p =>
        simp only [readHexLines, hline] at h ⊢
        rw [ih h]
        rfl

theorem readHexLines_singleton {number : Nat} {o : Option Pattern}
    (h : hexLine number line = .ok o) : readHexLines number [line] = { patterns := o.toList } := by
  cases o <;> simp only [readHexLines, h, Option.toList]

end Hex

/-! ## Reading a file -/

/-- Nothing is wrong with the bytes, in whatever line they start, and they hold these patterns. -/
def Form.Yields : Form → List UInt8 → List Pattern → Prop
  | .literal, bytes, ps => readLiteral bytes = { patterns := ps }
  | .hex, bytes, ps => ∀ number, readHexLines number (lines bytes) = { patterns := ps }

section Yields

variable {form : Form} {line bs cs : List UInt8} {p : Pattern} {ps qs : List Pattern}

theorem yields_blank (h : form.Blank line) : form.Yields line [] := by
  cases form with
  | literal => exact readLiteral_blank h
  | hex =>
    intro number
    rw [lines_of_blank h, readHexLines_singleton (hexLine_blank number h)]
    rfl

/-- **A line holds its pattern**, whatever is around it. -/
theorem yields_line (hne : p ≠ []) (hp : form.CanWrite p) (h : form.IsLine p line) :
    form.Yields line [p] := by
  cases form with
  | literal => exact readLiteral_line hne hp h
  | hex =>
    intro number
    obtain ⟨hlines, hline⟩ := hexLine_line number hne h
    rw [hlines, readHexLines_singleton hline]
    rfl

theorem yields_append (hbs : form.Yields bs ps) (hcs : form.Yields cs qs) :
    form.Yields (bs ++ 0x0A :: cs) (ps ++ qs) := by
  cases form with
  | literal =>
    show readLiteral (bs ++ 0x0A :: cs) = _
    rw [readLiteral_append, hbs, hcs]
  | hex =>
    intro number
    rw [lines_append, readHexLines_append (by rw [hbs]), hbs, hcs]

/-- **A file holds its patterns**, line by line. -/
theorem yields_of_isFile (hps : ∀ p ∈ ps, p ≠ [] ∧ form.CanWrite p) (h : form.IsFile ps bs) :
    form.Yields bs ps := by
  induction h with
  | lastBlank hline => exact yields_blank hline
  | lastLine hline =>
    obtain ⟨hne, hp⟩ := hps _ List.mem_cons_self
    exact yields_line hne hp hline
  | blank hline _ ih => exact yields_append (yields_blank hline) (ih hps)
  | line hline _ ih =>
    obtain ⟨⟨hne, hp⟩, hps⟩ := List.forall_mem_cons.1 hps
    exact yields_append (yields_line hne hp hline) (ih hps)

theorem read_of_yields (h : form.Yields bs ps) : read form bs = { patterns := ps } := by
  cases form with
  | literal => exact h
  | hex => exact h 1

end Yields

end PatternFile

namespace Builder

open PatternFile

/-- **A file of either form adds the patterns that it holds**, in order, and says how many they
are: the literal files of a list, its hexadecimal files and the list itself leave one and the same
builder. -/
theorem addFile_of_isFile (b : Builder) (form : Form) {ps : List Pattern} (hne : ∀ p ∈ ps, p ≠ [])
    (hps : ∀ p ∈ ps, form.CanWrite p) {bytes : List UInt8} (h : form.IsFile ps bytes) :
    b.addFile form bytes = (.ok ps.length, b.addAll ps) := by
  have hread := read_of_yields (yields_of_isFile (fun p hp => ⟨hne p hp, hps p hp⟩) h)
  rw [addFile, hread]

/-- A carriage return, a blank line, a byte that is no UTF-8 and no line feed at the end; in
hexadecimal digits, the blank line is a no-break space. -/
theorem addFile_isFile_padded :
    ({} : Builder).addFile .literal [0x20, 0x68, 0x65, 0x0D, 0x0A, 0x0A, 0xFF] =
        (.ok 2, ({} : Builder).addAll [[0x68, 0x65], [0xFF]]) ∧
      ({} : Builder).addFile .hex
          [0x36, 0x38, 0x36, 0x35, 0x0D, 0x0A, 0xC2, 0xA0, 0x0A, 0x66, 0x46] =
        (.ok 2, ({} : Builder).addAll [[0x68, 0x65], [0xFF]]) := by
  have hne : ∀ p ∈ [[0x68, 0x65], [0xFF]], p ≠ ([] : Pattern) := by decide
  constructor
  · have hwrite : ∀ p ∈ [[0x68, 0x65], [0xFF]], Form.literal.CanWrite p := by
      refine List.forall_mem_cons.2 ⟨?_, List.forall_mem_singleton.2 ?_⟩
      · exact ⟨by decide, fun _ => by rintro ⟨⟩; rfl, fun _ => by rintro ⟨⟩; rfl⟩
      · exact ⟨by decide, fun _ => by rintro ⟨⟩; rfl, fun _ => by rintro ⟨⟩; rfl⟩
    have hhe : Form.literal.IsLine [0x68, 0x65] [0x20, 0x68, 0x65, 0x0D] :=
      ⟨[0x20], _, [0x0D], List.forall_mem_singleton.2 rfl, rfl, List.forall_mem_singleton.2 rfl,
        rfl⟩
    have hlast : Form.literal.IsLine [0xFF] [0xFF] := ⟨[], _, [], nofun, rfl, nofun, rfl⟩
    have hblank : Form.literal.Blank [] := List.forall_mem_nil _
    exact addFile_of_isFile {} .literal hne hwrite (.line hhe (.blank hblank (.lastLine hlast)))
  · have hspells : Text.Hex.Spells [0x68, 0x65] ['6', '8', '6', '5'] :=
      .cons (.inl rfl) (.inl rfl) (.cons (.inl rfl) (.inl rfl) .nil)
    have hspells' : Text.Hex.Spells [0xFF] ['f', 'F'] := .cons (.inl rfl) (.inr rfl) .nil
    have hempty : Form.hex.Blank [] := ⟨[], rfl, nofun⟩
    have hhe : Form.hex.IsLine [0x68, 0x65] [0x36, 0x38, 0x36, 0x35, 0x0D] :=
      ⟨[], _, [0x0D], hempty, ⟨_, hspells, rfl⟩,
        ⟨['\r'], rfl, List.forall_mem_singleton.2 ⟨rfl, by decide⟩⟩, rfl⟩
    have hblank : Form.hex.Blank [0xC2, 0xA0] :=
      ⟨['\u00A0'], rfl, List.forall_mem_singleton.2 ⟨rfl, by decide⟩⟩
    have hlast : Form.hex.IsLine [0xFF] [0x66, 0x46] :=
      ⟨[], _, [], hempty, ⟨_, hspells', rfl⟩, hempty, rfl⟩
    exact addFile_of_isFile {} .hex hne (fun _ _ => trivial)
      (.line hhe (.blank hblank (.lastLine hlast)))

end Builder

end PatternScan
