import PatternScan.Text.Utf8

/-!
# Encoded text is read back

`Utf8.pieces` takes the encoding of a character off the front of a byte string
(`pieces_encodeChar_append`), so that `Utf8.decode?` is a left inverse of `Utf8.encode`. The ranges
which `Utf8.lead?` allows for the first continuation byte are those that occur: numbers that have a
shorter form, surrogates and numbers past the last code point are all they leave out. So a character
that is read was encoded (`eq_encodeChar_of_piece`), and the byte strings that `Utf8.decode?`
accepts are the encodings (`decode?_eq_some_iff`).
-/

namespace PatternScan.Text.Utf8

/-! ## Lead and continuation bytes -/

theorem toNat_tail {k : Nat} (hk : k < 64) : (UInt8.ofNat (k + 128)).toNat = k + 128 :=
  UInt8.toNat_ofNat_of_lt (by simp only [UInt8.size]; omega)

theorem isTail_iff {b : UInt8} : isTail b = true ↔ 128 ≤ b.toNat ∧ b.toNat ≤ 191 := by
  simp only [isTail, Bool.and_eq_true, decide_eq_true_eq, UInt8.le_iff_toNat_le]
  rfl

theorem isTail_tail {k : Nat} (hk : k < 64) : isTail (UInt8.ofNat (k + 128)) = true := by
  rw [isTail_iff, toNat_tail hk]
  omega

theorem tails_cons {n acc k : Nat} (hk : k < 64) (bs : List UInt8) :
    tails (n + 1) acc (UInt8.ofNat (k + 128) :: bs) = tails n (acc * 64 + k) bs := by
  rw [tails, if_pos (isTail_tail hk), toNat_tail hk, Nat.add_sub_cancel]

theorem exists_tail {b : UInt8} (h : 128 ≤ b.toNat) (h' : b.toNat ≤ 191) :
    ∃ k < 64, b = UInt8.ofNat (k + 128) := by
  refine ⟨b.toNat - 128, by omega, ?_⟩
  rw [Nat.sub_add_cancel h, UInt8.ofNat_toNat]

/-- Continuation bytes that are read were there. -/
theorem tails_succ_eq_some {n acc code : Nat} {bs rest : List UInt8}
    (h : tails (n + 1) acc bs = (some code, rest)) :
    ∃ k < 64, ∃ bs', bs = UInt8.ofNat (k + 128) :: bs' ∧
      tails n (acc * 64 + k) bs' = (some code, rest) := by
  cases bs with
  | nil => cases h
  | cons b bs =>
    rw [tails] at h
    split at h
    · rename_i htail
      obtain ⟨hlow, hhigh⟩ := isTail_iff.1 htail
      obtain ⟨k, hk, rfl⟩ := exists_tail hlow hhigh
      rw [toNat_tail hk, Nat.add_sub_cancel] at h
      exact ⟨k, hk, bs, rfl, h⟩
    · cases h

theorem lead?_two : ∀ k < 30, lead? (UInt8.ofNat (k + 194)) = some (1, 0x80, 0xBF, k + 2) := by
  decide

theorem lead?_three : ∀ k < 16, lead? (UInt8.ofNat (k + 224)) =
    some (2, if k = 0 then 0xA0 else 0x80, if k = 13 then 0x9F else 0xBF, k) := by
  decide

theorem lead?_four : ∀ k < 5, lead? (UInt8.ofNat (k + 240)) =
    some (3, if k = 0 then 0x90 else 0x80, if k = 4 then 0x8F else 0xBF, k) := by
  decide

theorem lead?_eq_none : ∀ n < 256, n < 194 ∨ 245 ≤ n → lead? (UInt8.ofNat n) = none := by
  decide +kernel

/-- What a lead byte announces, by its number. -/
theorem lead?_eq_some {b lo hi : UInt8} {n acc : Nat} (h : lead? b = some (n, lo, hi, acc)) :
    128 ≤ lo.toNat ∧ hi.toNat ≤ 191 ∧
      ((n = 1 ∧ 2 ≤ acc ∧ acc < 32 ∧ b = UInt8.ofNat (acc + 192)) ∨
        (n = 2 ∧ acc < 16 ∧ (acc = 0 → 160 ≤ lo.toNat) ∧ (acc = 13 → hi.toNat < 160) ∧
          b = UInt8.ofNat (acc + 224)) ∨
        (n = 3 ∧ acc < 5 ∧ (acc = 0 → 144 ≤ lo.toNat) ∧ (acc = 4 → hi.toNat < 144) ∧
          b = UInt8.ofNat (acc + 240))) := by
  have hb := b.toNat_lt
  rw [← UInt8.ofNat_toNat (x := b)] at h ⊢
  generalize b.toNat = v at *
  by_cases hout : v < 194 ∨ 245 ≤ v
  · rw [lead?_eq_none v hb hout] at h
    exact nomatch h
  by_cases htwo : v < 224
  · obtain ⟨k, hk, rfl⟩ : ∃ k < 30, v = k + 194 := ⟨v - 194, by omega, by omega⟩
    rw [lead?_two k hk] at h
    cases h
    exact ⟨by decide, by decide, .inl ⟨rfl, by omega, by omega, rfl⟩⟩
  by_cases hthree : v < 240
  · obtain ⟨k, hk, rfl⟩ : ∃ k < 16, v = k + 224 := ⟨v - 224, by omega, by omega⟩
    rw [lead?_three k hk] at h
    cases h
    refine ⟨?_, ?_, .inr (.inl ⟨rfl, hk, fun h0 => ?_, fun h13 => ?_, rfl⟩)⟩
    · split <;> decide
    · split <;> decide
    · rw [if_pos h0]; decide
    · rw [if_pos h13]; decide
  · obtain ⟨k, hk, rfl⟩ : ∃ k < 5, v = k + 240 := ⟨v - 240, by omega, by omega⟩
    rw [lead?_four k hk] at h
    cases h
    refine ⟨?_, ?_, .inr (.inr ⟨rfl, hk, fun h0 => ?_, fun h4 => ?_, rfl⟩)⟩
    · split <;> decide
    · split <;> decide
    · rw [if_pos h0]; decide
    · rw [if_pos h4]; decide

/-- A sequence of several bytes, from its lead byte and its first continuation byte. -/
theorem piece_of_lead? {b lo hi : UInt8} {n acc k code : Nat} {bs rest : List UInt8}
    (hlead : lead? b = some (n + 1, lo, hi, acc)) (hk : k < 64) (hlo : lo.toNat ≤ k + 128)
    (hhi : k + 128 ≤ hi.toNat) (htails : tails n (acc * 64 + k) bs = (some code, rest)) :
    piece b (UInt8.ofNat (k + 128) :: bs) = (.char (Char.ofNat code), rest) := by
  have hb : ¬b < 0x80 := fun hb => by
    have hlt : b.toNat < 128 := UInt8.lt_iff_toNat_lt.1 hb
    rw [← UInt8.ofNat_toNat (x := b), lead?_eq_none _ b.toNat_lt (.inl (by omega))] at hlead
    exact nomatch hlead
  have hrange : (decide (lo ≤ UInt8.ofNat (k + 128)) && decide (UInt8.ofNat (k + 128) ≤ hi)) =
      true := by
    rw [Bool.and_eq_true, decide_eq_true_eq, decide_eq_true_eq, UInt8.le_iff_toNat_le,
      UInt8.le_iff_toNat_le, toNat_tail hk]
    exact ⟨hlo, hhi⟩
  unfold piece
  rw [if_neg hb, hlead]
  simp only [hrange, if_true, toNat_tail hk, Nat.add_sub_cancel, htails]

/-! ## Characters -/

/-- The encoding of a character below 128 is its number. -/
theorem encodeChar_of_lt {c : Char} (h : c.toNat < 128) :
    String.utf8EncodeChar c = [UInt8.ofNat c.toNat] :=
  if_pos (Nat.le_of_lt_succ h)

/-- No other character has a byte below 128 in its encoding. -/
theorem toNat_of_mem_encodeChar {c : Char} {b : UInt8} (hb : b ∈ String.utf8EncodeChar c)
    (hlt : b.toNat < 128) : c.toNat = b.toNat := by
  have hhigh : ∀ {n}, b = UInt8.ofNat n → 128 ≤ n → n < 256 → c.toNat = b.toNat := by
    rintro n rfl hn hn'
    rw [UInt8.toNat_ofNat', Nat.mod_eq_of_lt hn'] at hlt
    omega
  unfold String.utf8EncodeChar at hb
  simp only at hb
  split at hb
  · rename_i h
    rw [List.mem_singleton.1 hb, UInt8.toNat_ofNat', Nat.mod_eq_of_lt (by omega)]
    rfl
  split at hb
  · simp only [List.mem_cons, List.not_mem_nil, or_false] at hb
    rcases hb with hb | hb <;> exact hhigh hb (by omega) (by omega)
  split at hb
  · simp only [List.mem_cons, List.not_mem_nil, or_false] at hb
    rcases hb with hb | hb | hb <;> exact hhigh hb (by omega) (by omega)
  · simp only [List.mem_cons, List.not_mem_nil, or_false] at hb
    rcases hb with hb | hb | hb | hb <;> exact hhigh hb (by omega) (by omega)

/-- The first piece of an encoded character, and what is behind it. -/
theorem piece_encodeChar (c : Char) : ∃ b tail, String.utf8EncodeChar c = b :: tail ∧
    ∀ bs, piece b (tail ++ bs) = (.char c, bs) := by
  have hvalid : c.toNat < 0xD800 ∨ 0xDFFF < c.toNat ∧ c.toNat < 0x110000 := c.valid
  have hchar : ∀ code, code = c.toNat → Piece.char c = .char (Char.ofNat code) := by
    rintro _ rfl
    rw [Char.ofNat_toNat]
  have hval : c.val.toNat = c.toNat := rfl
  unfold String.utf8EncodeChar
  simp only [hval]
  generalize c.toNat = v at *
  split
  · refine ⟨_, _, rfl, fun bs => ?_⟩
    have hlt : UInt8.ofNat v < 0x80 := by
      rw [UInt8.lt_iff_toNat_lt, UInt8.toNat_ofNat', Nat.mod_eq_of_lt (by omega)]
      exact Nat.lt_succ_of_le ‹_›
    unfold piece
    rw [if_pos hlt, UInt8.toNat_ofNat', Nat.mod_eq_of_lt (by omega), ← hchar v rfl]
    rfl
  split
  · refine ⟨_, _, rfl, fun bs => ?_⟩
    have hlead := lead?_two (v / 64 - 2) (by omega)
    rw [show v / 64 - 2 + 194 = v / 64 % 32 + 192 by omega] at hlead
    rw [hchar ((v / 64 - 2 + 2) * 64 + v % 64) (by omega)]
    exact piece_of_lead? hlead (by omega) (Nat.le_add_left _ _)
      (by simp only [UInt8.reduceToNat]; omega) rfl
  split
  · refine ⟨_, _, rfl, fun bs => ?_⟩
    have hlead := lead?_three (v / 4096 % 16) (by omega)
    rw [hchar ((v / 4096 % 16 * 64 + v / 64 % 64) * 64 + v % 64) (by omega)]
    refine piece_of_lead? hlead (by omega) ?_ ?_ (tails_cons (by omega) _)
    · split <;> (simp only [UInt8.reduceToNat]; omega)
    · split <;> (simp only [UInt8.reduceToNat]; omega)
  · refine ⟨_, _, rfl, fun bs => ?_⟩
    have hlead := lead?_four (v / 262144 % 8) (by omega)
    rw [hchar (((v / 262144 % 8 * 64 + v / 4096 % 64) * 64 + v / 64 % 64) * 64 + v % 64)
      (by omega)]
    refine piece_of_lead? hlead (by omega) ?_ ?_
      ((tails_cons (by omega) _).trans (tails_cons (by omega) _))
    · split <;> (simp only [UInt8.reduceToNat]; omega)
    · split <;> (simp only [UInt8.reduceToNat]; omega)

/-- **The encoding of a character is taken off the front.** -/
theorem pieces_encodeChar_append (c : Char) (bs : List UInt8) :
    pieces (String.utf8EncodeChar c ++ bs) = .char c :: pieces bs := by
  obtain ⟨b, tail, hc, hpiece⟩ := piece_encodeChar c
  rw [hc, List.cons_append, pieces, hpiece]

theorem toNat_ofNat {n : Nat} (h : n.isValidChar) : (Char.ofNat n).val.toNat = n := by
  rw [Char.ofNat, dif_pos h]
  rfl

theorem encodeChar_two {a k : Nat} (ha : 2 ≤ a) (ha' : a < 32) (hk : k < 64) :
    String.utf8EncodeChar (Char.ofNat (a * 64 + k)) =
      [UInt8.ofNat (a + 192), UInt8.ofNat (k + 128)] := by
  have hvalid : (a * 64 + k).isValidChar := by unfold Nat.isValidChar; omega
  unfold String.utf8EncodeChar
  simp only [toNat_ofNat hvalid]
  rw [if_neg (by omega), if_pos (by omega), show (a * 64 + k) / 64 % 32 = a by omega,
    show (a * 64 + k) % 64 = k by omega]

theorem encodeChar_three {a k l : Nat} (ha : a < 16) (hk : k < 64) (hl : l < 64)
    (hlow : a = 0 → 32 ≤ k) (hhigh : a = 13 → k < 32) :
    String.utf8EncodeChar (Char.ofNat ((a * 64 + k) * 64 + l)) =
      [UInt8.ofNat (a + 224), UInt8.ofNat (k + 128), UInt8.ofNat (l + 128)] := by
  have hvalid : ((a * 64 + k) * 64 + l).isValidChar := by unfold Nat.isValidChar; omega
  unfold String.utf8EncodeChar
  simp only [toNat_ofNat hvalid]
  rw [if_neg (by omega), if_neg (by omega), if_pos (by omega),
    show ((a * 64 + k) * 64 + l) / 4096 % 16 = a by omega,
    show ((a * 64 + k) * 64 + l) / 64 % 64 = k by omega,
    show ((a * 64 + k) * 64 + l) % 64 = l by omega]

theorem encodeChar_four {a k l m : Nat} (ha : a < 5) (hk : k < 64) (hl : l < 64) (hm : m < 64)
    (hlow : a = 0 → 16 ≤ k) (hhigh : a = 4 → k < 16) :
    String.utf8EncodeChar (Char.ofNat (((a * 64 + k) * 64 + l) * 64 + m)) =
      [UInt8.ofNat (a + 240), UInt8.ofNat (k + 128), UInt8.ofNat (l + 128),
        UInt8.ofNat (m + 128)] := by
  have hvalid : (((a * 64 + k) * 64 + l) * 64 + m).isValidChar := by unfold Nat.isValidChar; omega
  unfold String.utf8EncodeChar
  simp only [toNat_ofNat hvalid]
  rw [if_neg (by omega), if_neg (by omega), if_neg (by omega),
    show (((a * 64 + k) * 64 + l) * 64 + m) / 262144 % 8 = a by omega,
    show (((a * 64 + k) * 64 + l) * 64 + m) / 4096 % 64 = k by omega,
    show (((a * 64 + k) * 64 + l) * 64 + m) / 64 % 64 = l by omega,
    show (((a * 64 + k) * 64 + l) * 64 + m) % 64 = m by omega]

/-- **A character that is read was encoded.** -/
theorem eq_encodeChar_of_piece {b : UInt8} {bs rest : List UInt8} {c : Char}
    (h : piece b bs = (.char c, rest)) : b :: bs = String.utf8EncodeChar c ++ rest := by
  unfold piece at h
  split at h
  · rename_i hlow
    cases h
    have hb : b.toNat < 128 := UInt8.lt_iff_toNat_lt.1 hlow
    have hvalid : b.toNat.isValidChar := by unfold Nat.isValidChar; omega
    have hnumber : (Char.ofNat b.toNat).toNat = b.toNat := toNat_ofNat hvalid
    rw [encodeChar_of_lt (by rw [hnumber]; exact hb), hnumber, UInt8.ofNat_toNat]
    rfl
  split at h
  · rename_i n lo hi acc b' bs' hlead
    split at h
    · rename_i hrange
      rw [Bool.and_eq_true, decide_eq_true_eq, decide_eq_true_eq, UInt8.le_iff_toNat_le,
        UInt8.le_iff_toNat_le] at hrange
      split at h
      · rename_i code rest' htails
        cases h
        obtain ⟨hlo, hhi, hlead⟩ := lead?_eq_some hlead
        obtain ⟨k, hk, rfl⟩ := exists_tail (b := b') (by omega) (by omega)
        rw [toNat_tail hk] at hrange htails
        rw [Nat.add_sub_cancel] at htails
        rcases hlead with ⟨rfl, ha, ha', rfl⟩ | ⟨rfl, ha, hlow, hhigh, rfl⟩ |
          ⟨rfl, ha, hlow, hhigh, rfl⟩
        · cases htails
          rw [encodeChar_two ha ha' hk]
          rfl
        · obtain ⟨l, hl, bs, rfl, hread⟩ := tails_succ_eq_some htails
          cases hread
          rw [encodeChar_three ha hk hl (by omega) (by omega)]
          rfl
        · obtain ⟨l, hl, bs, rfl, hread⟩ := tails_succ_eq_some htails
          obtain ⟨m, hm, bs, rfl, hread'⟩ := tails_succ_eq_some hread
          cases hread'
          rw [encodeChar_four ha hk hl hm (by omega) (by omega)]
          rfl
      · cases h
    · cases h
  · cases h

/-! ## Texts -/

theorem encode_append (cs ds : List Char) : encode (cs ++ ds) = encode cs ++ encode ds :=
  List.flatMap_append

theorem encode_cons (c : Char) (cs : List Char) :
    encode (c :: cs) = String.utf8EncodeChar c ++ encode cs :=
  List.flatMap_cons

theorem pieces_encode (cs : List Char) : pieces (encode cs) = cs.map .char := by
  induction cs with
  | nil => rw [encode, List.flatMap_nil, pieces, List.map_nil]
  | cons c cs ih => rw [encode_cons, pieces_encodeChar_append, ih, List.map_cons]

/-- **Encoded text is read back.** -/
theorem decode?_encode (cs : List Char) : decode? (encode cs) = some cs := by
  rw [decode?, pieces_encode]
  induction cs with
  | nil => rfl
  | cons c cs ih => rw [List.map_cons, List.mapM_cons, ih]; rfl

theorem eq_encode_of_decode? {bs : List UInt8} {cs : List Char} (h : decode? bs = some cs) :
    bs = encode cs := by
  unfold decode? at h
  induction bs using pieces.induct generalizing cs with
  | case1 =>
    rw [pieces] at h
    cases h
    rfl
  | case2 b bs _ ih =>
    rw [pieces, List.mapM_cons] at h
    generalize hpiece : piece b bs = q at h ih
    obtain ⟨c | _, rest⟩ := q
    · obtain ⟨_, ⟨⟩, h⟩ := Option.bind_eq_some_iff.1 h
      obtain ⟨cs', hcs', ⟨⟩⟩ := Option.bind_eq_some_iff.1 h
      have hrest : rest = encode cs' := ih hcs'
      rw [eq_encodeChar_of_piece hpiece, hrest, encode_cons]
    · exact nomatch h

/-- **Text is what was encoded.** -/
theorem decode?_eq_some_iff {bs : List UInt8} {cs : List Char} :
    decode? bs = some cs ↔ bs = encode cs :=
  ⟨eq_encode_of_decode?, fun h => h ▸ decode?_encode cs⟩

theorem encode_injective {cs ds : List Char} (h : encode cs = encode ds) : cs = ds := by
  have hread := decode?_encode cs
  rw [h, decode?_encode] at hread
  exact (Option.some.inj hread).symm

/-- A byte below 128 in an encoded text is a character of it. -/
theorem exists_of_mem_encode {cs : List Char} {b : UInt8} (hb : b ∈ encode cs)
    (hlt : b.toNat < 128) : ∃ c ∈ cs, c.toNat = b.toNat := by
  obtain ⟨c, hc, hmem⟩ := List.mem_flatMap.1 hb
  exact ⟨c, hc, toNat_of_mem_encodeChar hmem hlt⟩

end PatternScan.Text.Utf8
