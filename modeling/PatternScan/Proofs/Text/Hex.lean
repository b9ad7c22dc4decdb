import PatternScan.Proofs.Text.Utf8
import PatternScan.StateId
import PatternScan.Text.Blank
import PatternScan.Text.Hex

/-!
# Hexadecimal forms of byte strings

`Hex.Spells` relates a byte string to all its hexadecimal forms: two digits a byte, each of them in
either case. `Hex.decode_of_spells` says that every form is read back. An even number of digits is a
form (`Hex.exists_spells`); of anything else `Hex.decode` says what is wrong with it, an odd length
(`Hex.decode_of_odd`) or the first byte that is no digit (`Hex.decode_badByte`).
-/

namespace PatternScan.Text.Hex

/-- A digit of the number `n`, in either case. -/
def IsDigit (n : UInt8) (c : Char) : Prop :=
  c = digit n ∨ c = (digit n).toUpper

/-- A hexadecimal form of a byte string. -/
inductive Spells : List UInt8 → List Char → Prop
  | nil : Spells [] []
  | cons {b : UInt8} {p : List UInt8} {hi lo : Char} {cs : List Char} :
    IsDigit (b / 16) hi → IsDigit (b % 16) lo → Spells p cs → Spells (b :: p) (hi :: lo :: cs)

theorem digit_spec : ∀ n < 16, ∀ upper : Bool,
    let c := if upper then (digit (UInt8.ofNat n)).toUpper else digit (UInt8.ofNat n)
    c.toNat < 128 ∧ digit? (UInt8.ofNat c.toNat) = some (UInt8.ofNat n) ∧ isBlank c = false := by
  decide +kernel

variable {n : UInt8} {c : Char} {p : List UInt8} {cs : List Char}

theorem IsDigit.spec (h : IsDigit n c) (hn : n.toNat < 16) :
    String.utf8EncodeChar c = [UInt8.ofNat c.toNat] ∧ digit? (UInt8.ofNat c.toNat) = some n ∧
      isBlank c = false := by
  have hspec := digit_spec n.toNat hn
  rw [UInt8.ofNat_toNat] at hspec
  have hc : c.toNat < 128 ∧ digit? (UInt8.ofNat c.toNat) = some n ∧ isBlank c = false := by
    rcases h with rfl | rfl
    · exact hspec false
    · exact hspec true
  exact ⟨Utf8.encodeChar_of_lt hc.1, hc.2⟩

theorem div_lt (b : UInt8) : (b / 16).toNat < 16 := by
  have := b.toNat_lt
  rw [UInt8.toNat_div]
  exact Nat.div_lt_of_lt_mul this

theorem mod_lt (b : UInt8) : (b % 16).toNat < 16 := by
  rw [UInt8.toNat_mod]
  exact Nat.mod_lt _ (by decide)

theorem div_mul_add_mod (b : UInt8) : b / 16 * 16 + b % 16 = b := by
  have := b.toNat_lt
  refine UInt8.toNat_inj.1 ?_
  simp only [UInt8.toNat_add, UInt8.toNat_mul, UInt8.toNat_div, UInt8.toNat_mod,
    UInt8.toNat_ofNat, Nat.reducePow, Nat.reduceMod]
  omega

/-- No character of a form is white space. -/
theorem Spells.not_blank (h : Spells p cs) : ∀ c ∈ cs, isBlank c = false := by
  induction h with
  | nil => nofun
  | cons hhi hlo _ ih =>
    refine List.forall_mem_cons.2 ⟨(hhi.spec (div_lt _)).2.2, ?_⟩
    exact List.forall_mem_cons.2 ⟨(hlo.spec (mod_lt _)).2.2, ih⟩

theorem Spells.length (h : Spells p cs) : (Utf8.encode cs).length = 2 * p.length := by
  induction h with
  | nil => rfl
  | cons hhi hlo _ ih =>
    rw [Utf8.encode_cons, Utf8.encode_cons, (hhi.spec (div_lt _)).1, (hlo.spec (mod_lt _)).1]
    simp only [List.singleton_append, List.length_cons, ih]
    omega

theorem decodePairs_of_spells (h : Spells p cs) (offset : Nat) :
    decodePairs offset (Utf8.encode cs) = .ok p := by
  induction h generalizing offset with
  | nil => rfl
  | cons hhi hlo _ ih =>
    obtain ⟨hencode, hdigit, -⟩ := hhi.spec (div_lt _)
    obtain ⟨hencode', hdigit', -⟩ := hlo.spec (mod_lt _)
    rw [Utf8.encode_cons, Utf8.encode_cons, hencode, hencode', List.singleton_append,
      List.singleton_append, decodePairs]
    simp only [hdigit, hdigit', ih, div_mul_add_mod]
    rfl

/-- **Every form is read back.** -/
theorem decode_of_spells (h : Spells p cs) : decode (Utf8.encode cs) = .ok p := by
  rw [decode, if_neg (by rw [h.length]; omega)]
  exact decodePairs_of_spells h 0

/-! ## What is no form -/

/-- One of the characters `0` to `9`, `A` to `F` and `a` to `f`. -/
def IsDigitByte (b : UInt8) : Prop :=
  (0x30 ≤ b ∧ b ≤ 0x39) ∨ (0x41 ≤ b ∧ b ≤ 0x46) ∨ (0x61 ≤ b ∧ b ≤ 0x66)

variable {b : UInt8} {ds before after : List UInt8}

theorem digit?_isSome_iff : (digit? b).isSome ↔ IsDigitByte b := by
  unfold digit? IsDigitByte
  simp only [Bool.and_eq_true, decide_eq_true_eq]
  split
  · simp [*]
  split
  · simp [*]
  · split <;> simp [*]

theorem digit?_of_isDigitByte (h : IsDigitByte b) : ∃ n, digit? b = some n :=
  Option.isSome_iff_exists.1 (digit?_isSome_iff.2 h)

theorem digit?_of_not_isDigitByte (h : ¬IsDigitByte b) : digit? b = none := by
  rwa [← digit?_isSome_iff, Bool.not_eq_true, Option.isSome_eq_false_iff,
    Option.isNone_iff_eq_none] at h

theorem mem_digit?_spec : ∀ k < 256, ∀ n ∈ digit? (UInt8.ofNat k), n < 16 ∧
    ((digit n).toNat = k ∨ (digit n).toUpper.toNat = k) := by
  decide +kernel

/-- A byte with a value is a digit of this value. -/
theorem exists_isDigit {n : UInt8} (h : digit? b = some n) :
    n < 16 ∧ ∃ c, IsDigit n c ∧ String.utf8EncodeChar c = [b] := by
  have hspec := mem_digit?_spec b.toNat b.toNat_lt n (by rw [UInt8.ofNat_toNat]; exact h)
  obtain ⟨hn, hc⟩ := hspec
  refine ⟨hn, ?_⟩
  have hb : ∀ {c : Char}, IsDigit n c → c.toNat = b.toNat → String.utf8EncodeChar c = [b] := by
    intro c hc hcode
    rw [(hc.spec (UInt8.lt_iff_toNat_lt.1 hn)).1, hcode, UInt8.ofNat_toNat]
  rcases hc with hc | hc
  · exact ⟨_, .inl rfl, hb (.inl rfl) hc⟩
  · exact ⟨_, .inr rfl, hb (.inr rfl) hc⟩

theorem div_mod_of_digits {hi lo : UInt8} (hhi : hi < 16) (hlo : lo < 16) :
    (hi * 16 + lo) / 16 = hi ∧ (hi * 16 + lo) % 16 = lo := by
  rw [UInt8.lt_iff_toNat_lt] at hhi hlo
  have hhi' : hi.toNat < 16 := hhi
  have hlo' : lo.toNat < 16 := hlo
  constructor <;> refine UInt8.toNat_inj.1 ?_ <;>
    simp only [UInt8.toNat_add, UInt8.toNat_mul, UInt8.toNat_div, UInt8.toNat_mod,
      UInt8.toNat_ofNat, Nat.reducePow, Nat.reduceMod] <;> omega

/-- **Pairs of digits are a form** of some byte string. -/
theorem exists_spells : ∀ {ds : List UInt8}, ds.length % 2 = 0 → (∀ d ∈ ds, IsDigitByte d) →
    ∃ p cs, Spells p cs ∧ ds = Utf8.encode cs
  | [], _, _ => ⟨[], [], .nil, rfl⟩
  | [_], h, _ => nomatch h
  | hi :: lo :: ds, heven, hds => by
    obtain ⟨hhi, hlo, hds⟩ : IsDigitByte hi ∧ IsDigitByte lo ∧ ∀ d ∈ ds, IsDigitByte d := by
      simpa only [List.forall_mem_cons] using hds
    obtain ⟨h, hh⟩ := digit?_of_isDigitByte hhi
    obtain ⟨l, hl⟩ := digit?_of_isDigitByte hlo
    obtain ⟨hlt, c, hc, hcode⟩ := exists_isDigit hh
    obtain ⟨hlt', c', hc', hcode'⟩ := exists_isDigit hl
    have heven : ds.length % 2 = 0 := by
      simpa only [List.length_cons, Nat.add_assoc, Nat.add_mod_right] using heven
    obtain ⟨p, cs, hp, hcs⟩ := exists_spells heven hds
    obtain ⟨hdiv, hmod⟩ := div_mod_of_digits hlt hlt'
    refine ⟨(h * 16 + l) :: p, c :: c' :: cs, .cons (by rwa [hdiv]) (by rwa [hmod]) hp, ?_⟩
    rw [Utf8.encode_cons, Utf8.encode_cons, hcode, hcode', hcs]
    rfl

theorem decodePairs_badByte (hb : ¬IsDigitByte b) : ∀ {before : List UInt8} (offset : Nat),
    (before ++ b :: after).length % 2 = 0 → (∀ d ∈ before, IsDigitByte d) →
    decodePairs offset (before ++ b :: after) = .error (.invalidByte b (offset + before.length))
  | [], offset, heven, _ => by
    match after with
    | [] => exact nomatch heven
    | lo :: after =>
      rw [List.nil_append, decodePairs, digit?_of_not_isDigitByte hb]
      rfl
  | [d], offset, heven, hds => by
    obtain ⟨h, hd⟩ := digit?_of_isDigitByte (hds d List.mem_cons_self)
    simp only [List.cons_append, List.nil_append, decodePairs, hd, digit?_of_not_isDigitByte hb,
      List.length_singleton]
  | d :: d' :: before, offset, heven, hds => by
    obtain ⟨hd, hd', hds⟩ : IsDigitByte d ∧ IsDigitByte d' ∧ ∀ d ∈ before, IsDigitByte d := by
      simpa only [List.forall_mem_cons] using hds
    obtain ⟨h, hh⟩ := digit?_of_isDigitByte hd
    obtain ⟨l, hl⟩ := digit?_of_isDigitByte hd'
    have heven : (before ++ b :: after).length % 2 = 0 := by
      simpa only [List.cons_append, List.length_cons, Nat.add_assoc, Nat.add_mod_right] using heven
    have hrest := decodePairs_badByte hb (offset + 2) heven hds
    simp only [List.cons_append, decodePairs, hh, hl, hrest, List.length_cons]
    rw [Nat.add_right_comm, Nat.add_assoc]
    rfl

/-- The first byte that is no digit. -/
theorem exists_badByte (h : ¬∀ d ∈ ds, IsDigitByte d) : ∃ before b after,
    ds = before ++ b :: after ∧ (∀ d ∈ before, IsDigitByte d) ∧ ¬IsDigitByte b := by
  induction ds with
  | nil => exact absurd (List.forall_mem_nil _) h
  | cons d ds ih =>
    by_cases hd : IsDigitByte d
    · obtain ⟨before, b, after, rfl, hbefore, hb⟩ :=
        ih fun hds => h (List.forall_mem_cons.2 ⟨hd, hds⟩)
      exact ⟨d :: before, b, after, rfl, List.forall_mem_cons.2 ⟨hd, hbefore⟩, hb⟩
    · exact ⟨[], d, ds, rfl, List.forall_mem_nil _, hd⟩

theorem decode_of_odd (h : ds.length % 2 = 1) : decode ds = .error .oddLength :=
  if_pos h

/-- **The first byte that is no digit** is what is wrong with an even number of bytes. -/
theorem decode_badByte (heven : (before ++ b :: after).length % 2 = 0)
    (hbefore : ∀ d ∈ before, IsDigitByte d) (hb : ¬IsDigitByte b) :
    decode (before ++ b :: after) = .error (.invalidByte b before.length) := by
  rw [decode, if_neg (by omega), decodePairs_badByte hb 0 heven hbefore, Nat.zero_add]

end PatternScan.Text.Hex
