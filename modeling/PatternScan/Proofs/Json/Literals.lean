import Mathlib.Data.List.TakeDrop
import PatternScan.Json.Parser

/-!
# Numbers and strings read back

The literals that a value is written with are read off the front of a text: the digits of a natural
number up to the first character that could not belong to a number (`readNumber_toDigits`), and a
quoted text up to its closing quote, whatever characters it has (`readString_quote`).
-/

namespace PatternScan.Json

/-! ## Numbers -/

/-- No number goes on with these characters. -/
def EndsNumber (cs : List Char) : Prop :=
  ∀ c ∈ cs.head?, isDigit c = false ∧ c ≠ '.' ∧ c ≠ 'e' ∧ c ≠ 'E'

theorem isDigit_of_mem_toDigits {n : Nat} {c : Char} (h : c ∈ Nat.toDigits 10 n) :
    isDigit c = true :=
  Nat.isDigit_of_mem_toDigits (by decide) (by decide) h

theorem ne_of_isDigit {c d : Char} (hd : isDigit d = true) (hc : isDigit c = false) : d ≠ c := by
  rintro rfl
  exact Bool.false_ne_true (hc.symm.trans hd)

theorem exists_toDigits (n : Nat) : ∃ d ds, Nat.toDigits 10 n = d :: ds ∧ isDigit d = true := by
  obtain ⟨d, ds, hds⟩ := List.exists_cons_of_ne_nil (Nat.toDigits_ne_nil (b := 10) (n := n))
  exact ⟨d, ds, hds, isDigit_of_mem_toDigits (hds ▸ List.mem_cons_self)⟩

theorem digitChar_ne_zero : ∀ d < 10, d ≠ 0 → Nat.digitChar d ≠ '0' := by
  decide

/-- The digits of a number do not start with a zero, unless it is zero. -/
theorem exists_toDigits_of_ne_zero {n : Nat} (hn : n ≠ 0) :
    ∃ d ds, Nat.toDigits 10 n = d :: ds ∧ d ≠ '0' := by
  induction n using Nat.strongRecOn with
  | ind n ih =>
    by_cases hlt : n < 10
    · exact ⟨_, [], Nat.toDigits_of_lt_base hlt, digitChar_ne_zero n hlt hn⟩
    · obtain ⟨d, ds, hds, hd⟩ := ih (n / 10) (by omega) (by omega)
      refine ⟨d, ds ++ [Nat.digitChar (n % 10)], ?_, hd⟩
      rw [Nat.toDigits_of_base_le (by decide) (Nat.not_lt.1 hlt), hds, List.cons_append]

section Number

variable {rest : List Char}

theorem span_append {α : Type} {p : α → Bool} {xs ys : List α} (hxs : ∀ x ∈ xs, p x)
    (hys : ∀ y ∈ ys.head?, p y = false) : (xs ++ ys).span p = (xs, ys) := by
  rw [List.span_eq_takeWhile_dropWhile, List.takeWhile_append_of_pos hxs,
    List.dropWhile_append_of_pos hxs]
  cases ys with
  | nil => rw [List.takeWhile_nil, List.dropWhile_nil, List.append_nil]
  | cons y ys =>
    have hy : ¬p y := Bool.eq_false_iff.1 (hys y rfl)
    rw [List.takeWhile_cons_of_neg hy, List.dropWhile_cons_of_neg hy, List.append_nil]

theorem readDigits_append {ds : List Char} (hne : ds ≠ []) (hds : ∀ d ∈ ds, isDigit d)
    (hrest : EndsNumber rest) : readDigits (ds ++ rest) = some (ds, rest) := by
  rw [readDigits, span_append hds fun c hc => (hrest c hc).1]
  cases ds with
  | nil => contradiction
  | cons d ds => rfl

theorem readWhole_toDigits (n : Nat) (hrest : EndsNumber rest) :
    readWhole (Nat.toDigits 10 n ++ rest) = some (Nat.toDigits 10 n, rest) := by
  by_cases hn : n = 0
  · rw [hn, Nat.toDigits_zero]
    rfl
  · have hread := readDigits_append (Nat.toDigits_ne_nil (b := 10) (n := n))
      (fun d hd => isDigit_of_mem_toDigits hd) hrest
    obtain ⟨d, ds, hds, hd⟩ := exists_toDigits_of_ne_zero hn
    rw [hds, List.cons_append] at hread ⊢
    rw [readWhole, hread]
    rintro _ ⟨⟩
    exact hd rfl

theorem readFraction_of_endsNumber (hrest : EndsNumber rest) :
    readFraction rest = some ([], rest) := by
  cases rest with
  | nil => rfl
  | cons c rest =>
    rw [readFraction]
    rintro _ ⟨⟩
    exact (hrest _ rfl).2.1 rfl

theorem readExponent_of_endsNumber (hrest : EndsNumber rest) :
    readExponent rest = some ([], rest) := by
  cases rest with
  | nil => rfl
  | cons c rest =>
    obtain ⟨-, -, he, hE⟩ := hrest c rfl
    simp [readExponent, he, hE]

/-- **The digits of a natural number are read as its literal.** -/
theorem readNumber_toDigits (n : Nat) (hrest : EndsNumber rest) :
    readNumber (Nat.toDigits 10 n ++ rest) = some (Nat.toDigits 10 n, rest) := by
  have hunsigned : readUnsigned (Nat.toDigits 10 n ++ rest) = some (Nat.toDigits 10 n, rest) := by
    simp [readUnsigned, readWhole_toDigits n hrest, readFraction_of_endsNumber hrest,
      readExponent_of_endsNumber hrest]
  obtain ⟨d, ds, hds, hd⟩ := exists_toDigits n
  rw [hds, List.cons_append] at hunsigned ⊢
  rw [readNumber, hunsigned]
  -- a sign is no digit
  rintro _ ⟨⟩
  exact ne_of_isDigit hd (by decide) rfl

end Number

/-- The value of the literal of a natural number below 2^64. -/
theorem natural?_natural {n : Nat} (hn : n < UInt64.size) : (natural n).natural? = some n := by
  have hall : (Nat.toDigits 10 n).all isDigit = true :=
    List.all_eq_true.2 fun d hd => isDigit_of_mem_toDigits hd
  have hvalue : (Nat.toDigits 10 n).foldl (fun m c => 10 * m + (c.toNat - 0x30)) 0 = n :=
    Nat.ofDigitChars_ten_toDigits
  rw [natural, natural?, if_pos hall, hvalue]
  exact if_pos hn

/-! ## Strings -/

section String

variable {fuel : Nat} {cs : List Char}

theorem hexDigit?_digitChar : ∀ d < 16, hexDigit? (Nat.digitChar d) = some d := by
  decide

/-- The code point of a control character in four digits. -/
theorem readUnit_control {c : Char} (hc : c.toNat < 0x20) (cs : List Char) :
    readUnit ('0' :: '0' :: Nat.digitChar (c.toNat / 16) :: Nat.digitChar (c.toNat % 16) :: cs) =
      some (c.toNat, cs) := by
  have hzero : hexDigit? '0' = some 0 := by decide
  rw [readUnit, hzero, hexDigit?_digitChar _ (by omega), hexDigit?_digitChar _ (by omega)]
  simp only [Option.bind_eq_bind, Option.bind_some, Option.pure_def, Option.some.injEq,
    Prod.mk.injEq, and_true]
  omega

theorem escapeChar_ne_nil (c : Char) : escapeChar c ≠ [] := by
  unfold escapeChar
  repeat' split
  all_goals exact List.cons_ne_nil _ _

/-- Puts a character in front of what is read. -/
def consChar (c : Char) : List Unit × List Char → List Unit × List Char
  | (us, rest) => (.char c :: us, rest)

theorem readUnits_short {e d : Char} (he : e ≠ 'u') (hd : escaped? e = some d) :
    readUnits (fuel + 1) ('\\' :: e :: cs) = (readUnits fuel cs).map (consChar d) := by
  rw [readUnits, if_neg (by decide), if_pos rfl, hd]
  · cases readUnits fuel cs <;> rfl
  · exact he

theorem readUnits_plain {c : Char} (hquote : c ≠ '"') (hback : c ≠ '\\') (hc : ¬c.toNat < 0x20) :
    readUnits (fuel + 1) (c :: cs) = (readUnits fuel cs).map (consChar c) := by
  rw [readUnits.eq_def]
  simp only [hquote, hback, hc, if_false]
  cases readUnits fuel cs <;> rfl

theorem readUnits_control {c : Char} (hc : c.toNat < 0x20) :
    readUnits (fuel + 1) ('\\' :: 'u' :: '0' :: '0' :: Nat.digitChar (c.toNat / 16) ::
      Nat.digitChar (c.toNat % 16) :: cs) = (readUnits fuel cs).map (consChar c) := by
  have hchar : Unit.ofNumber c.toNat = .char c := by
    rw [Unit.ofNumber, if_neg (by simp; omega), Char.ofNat_toNat]
  rw [readUnits, if_neg (by decide), if_pos rfl, readUnit_control hc]
  simp only [Option.bind_eq_bind, Option.bind_some, hchar]
  cases readUnits fuel cs <;> rfl

/-- **A written character is read as itself**, in front of what follows. -/
theorem readUnits_escapeChar (c : Char) : readUnits (fuel + 1) (escapeChar c ++ cs) =
    (readUnits fuel cs).map (consChar c) := by
  unfold escapeChar
  split_ifs with hquote hback hb ht hn hf hr hcontrol
  · subst hquote
    exact readUnits_short (by decide) rfl
  · subst hback
    exact readUnits_short (by decide) rfl
  · subst hb
    exact readUnits_short (by decide) rfl
  · subst ht
    exact readUnits_short (by decide) rfl
  · subst hn
    exact readUnits_short (by decide) rfl
  · subst hf
    exact readUnits_short (by decide) rfl
  · subst hr
    exact readUnits_short (by decide) rfl
  · exact readUnits_control hcontrol
  · exact readUnits_plain hquote hback hcontrol

theorem readUnits_flatMap_escapeChar (s : List Char) (hfuel : s.length < fuel) :
    readUnits fuel (s.flatMap escapeChar ++ '"' :: cs) = some (s.map .char, cs) := by
  induction s generalizing fuel with
  | nil =>
    obtain ⟨fuel, rfl⟩ := Nat.exists_eq_add_one_of_ne_zero (Nat.ne_of_gt hfuel)
    rfl
  | cons c s ih =>
    obtain ⟨fuel, rfl⟩ := Nat.exists_eq_add_one_of_ne_zero (Nat.ne_zero_of_lt hfuel)
    rw [List.flatMap_cons, List.append_assoc, readUnits_escapeChar,
      ih (Nat.lt_of_succ_lt_succ hfuel)]
    rfl

theorem textOf_map_char (s : List Char) : textOf (s.map .char) = some s := by
  induction s with
  | nil => rfl
  | cons c s ih => rw [List.map_cons, textOf, ih, Option.map_some]

theorem length_le_length_flatMap_escapeChar (s : List Char) :
    s.length ≤ (s.flatMap escapeChar).length := by
  induction s with
  | nil => exact Nat.le_refl 0
  | cons c s ih =>
    have hpos := List.length_pos_iff.2 (escapeChar_ne_nil c)
    rw [List.flatMap_cons, List.length_append, List.length_cons]
    omega

/-- **A quoted text is read up to its closing quote.** -/
theorem readString_quote (s cs : List Char) :
    readString (s.flatMap escapeChar ++ '"' :: cs) = some (some s, cs) := by
  have hlen := length_le_length_flatMap_escapeChar s
  rw [readString, readUnits_flatMap_escapeChar s ?_, Option.map_some]
  · simp only [textOf_map_char]
  · rw [List.length_append, List.length_cons]
    omega

example : readString ("a\\\"\\n\\u0001é\", 1".toList) =
    some (some ['a', '"', '\n', '\x01', 'é'], [',', ' ', '1']) := by decide

end String

end PatternScan.Json
