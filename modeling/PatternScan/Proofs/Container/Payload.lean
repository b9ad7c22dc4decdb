import PatternScan.Container
import PatternScan.Proofs.Automaton.Trace
import PatternScan.Proofs.Container.Words
import PatternScan.Proofs.Except

/-!
# Payloads as words

`tableAt` is the table that the words of a payload hold at the offsets that belong to `n` states.
Reading a payload succeeds exactly if it ends cleanly, has as many bytes as such a table takes and
announces it in its header (`readTable_eq_ok_iff`). Writing that table gives the payload back
(`payload_tableAt`), and the payload of an automaton holds that automaton (`tableAt_payload`).
-/

namespace PatternScan.Container

/-- The table of `n` states in the words of a payload. -/
def tableAt (p : ByteArray) (n : Nat) : Automaton :=
  ⟨Array.ofFn fun s : Fin n =>
    { next := Vector.ofFn fun c : Fin 256 => word p (4 + n + (256 * s.val + c.val))
      len := word p (4 + s.val)
      link := word p (4 + 257 * n + s.val)
      pattern := word p (4 + 258 * n + s.val) }⟩

/-- The header of a payload announces a table of `n` states that can be addressed. -/
structure Announces (p : ByteArray) (n : Nat) : Prop where
  count : ∀ i, i < 4 → word p i = n
  root_lt : StateId.root < n
  cells_lt : 256 * n < 2 ^ 64

/-! ## Reading -/

section Read

variable {s : ByteStream} {n : Nat}

theorem readSize_eq_ok_iff :
    readSize s = .ok n ↔ 32 ≤ s.bytes.size ∧ Announces s.bytes n := by
  simp only [readSize, bind_eq_ok_iff, ite_throw_eq_ok_iff, readWord_eq_ok_iff, Bool.or_eq_true,
    decide_eq_true_eq, not_or, ne_eq, not_not, Nat.not_le, pure, Except.pure, Except.ok.injEq]
  constructor
  · rintro ⟨len, ⟨-, hlen⟩, next, ⟨-, hnext⟩, link, ⟨-, hlink⟩, pattern, ⟨hle, hpattern⟩,
      ⟨⟨hn, hl⟩, hp⟩, hroot, hcells, rfl⟩
    refine ⟨hle, fun i hi => ?_, hroot, hcells⟩
    match i, hi with
    | 0, _ => exact hlen.symm
    | 1, _ => exact hnext.symm.trans hn
    | 2, _ => exact hlink.symm.trans hl
    | 3, _ => exact hpattern.symm.trans hp
  · rintro ⟨hle, hcount, hroot, hcells⟩
    exact ⟨n, ⟨by omega, (hcount 0 (by decide)).symm⟩, n, ⟨by omega, (hcount 1 (by decide)).symm⟩,
      n, ⟨by omega, (hcount 2 (by decide)).symm⟩, n, ⟨by omega, (hcount 3 (by decide)).symm⟩,
      ⟨⟨rfl, rfl⟩, rfl⟩, hroot, hcells, rfl⟩

theorem ofColumns_column (p : ByteArray) (n : Nat) :
    ofColumns n (column p 4 n) (column p (4 + n) (256 * n)) (column p (4 + 257 * n) n)
      (column p (4 + 258 * n) n) = tableAt p n := by
  refine congrArg Automaton.mk (congrArg Array.ofFn (funext fun u => ?_))
  have hnext : ∀ c : Fin 256, (column p (4 + n) (256 * n)).getD (256 * u.val + c.val) 0 =
      word p (4 + n + (256 * u.val + c.val)) := fun c => getD_column p (by omega)
  simp only [getD_column p u.isLt, hnext]

/-- Where a header is followed by all that it announces, the rest of the stream decides. -/
theorem readTable_of_announces (hn : Announces s.bytes n)
    (hle : 8 * (4 + 259 * n) ≤ s.bytes.size) : readTable s =
      if 8 * (4 + 259 * n) < s.bytes.size then .error (.defect .extraData)
      else if s.ending ≠ .clean then .error (.ofEnding .trailing s.ending)
      else .ok (tableAt s.bytes n) := by
  have hsize : readSize s = .ok n := readSize_eq_ok_iff.2 ⟨by omega, hn⟩
  have hread : ∀ (field : Field) (i k m : Nat), i = 8 * k → k + m ≤ 4 + 259 * n →
      readWords s field m i = .ok (column s.bytes k m) := fun field i k m hi hm =>
    readWords_of_le hi (by omega)
  have hlen := hread (.column .len) 32 4 n (by omega) (by omega)
  have hnext := hread (.column .next) (32 + 8 * n) (4 + n) (256 * n) (by omega) (by omega)
  have hlink := hread (.column .link) (32 + 8 * (257 * n)) (4 + 257 * n) n (by omega) (by omega)
  have hpattern :=
    hread (.column .pattern) (32 + 8 * (258 * n)) (4 + 258 * n) n (by omega) (by omega)
  rw [← ofColumns_column, show 8 * (4 + 259 * n) = 32 + 8 * (259 * n) by omega]
  simp only [readTable, hsize, hlen, hnext, hlink, hpattern, bind, Except.bind]
  rfl

/-- **A payload can be read exactly if it has the size that its header announces**, and what is read
is the table in its words. -/
theorem readTable_eq_ok_iff {a : Automaton} : readTable s = .ok a ↔
    s.ending = .clean ∧ ∃ n, s.bytes.size = 8 * (4 + 259 * n) ∧ Announces s.bytes n ∧
      a = tableAt s.bytes n := by
  constructor
  · intro h
    simp only [readTable, bind_eq_ok_iff, ite_throw_eq_ok_iff, readSize_eq_ok_iff, ne_eq, not_not,
      pure, Except.pure, Except.ok.injEq, Nat.not_lt] at h
    obtain ⟨n, ⟨h32, hn⟩, len, hlen, next, hnext, link, hlink, pattern, hpattern, hsize, hend,
      rfl⟩ := h
    obtain ⟨h₁, hlen⟩ := (readWords_eq_ok_iff (k := 4) rfl h32).1 hlen
    obtain ⟨h₂, hnext⟩ := (readWords_eq_ok_iff (k := 4 + n) (by omega) (by omega)).1 hnext
    obtain ⟨h₃, hlink⟩ := (readWords_eq_ok_iff (k := 4 + 257 * n) (by omega) (by omega)).1 hlink
    obtain ⟨h₄, hpattern⟩ :=
      (readWords_eq_ok_iff (k := 4 + 258 * n) (by omega) (by omega)).1 hpattern
    refine ⟨hend, n, by omega, hn, ?_⟩
    rw [hlen, hnext, hlink, hpattern, ofColumns_column]
  · rintro ⟨hend, n, hsize, hn, rfl⟩
    rw [readTable_of_announces hn (Nat.le_of_eq hsize.symm), if_neg (by omega),
      if_neg (not_not.2 hend)]

theorem decodePayload_eq_ok_iff {a : Automaton} :
    decodePayload s = .ok a ↔ readTable s = .ok a ∧ a.defect? = none := by
  unfold decodePayload
  rw [bind_eq_ok_iff]
  constructor
  · rintro ⟨b, hb, h⟩
    cases hd : b.defect? with
    | some d => rw [hd] at h; exact nomatch h
    | none =>
      rw [hd] at h
      obtain ⟨⟩ := h
      exact ⟨hb, hd⟩
  · rintro ⟨hread, hd⟩
    refine ⟨a, hread, ?_⟩
    rw [hd]
    rfl

end Read

/-! ## Writing -/

section Write

variable {p : ByteArray} {n : Nat} {a b : Automaton}

theorem toList_cells (a : Automaton) : a.cells.toList = (List.range a.size).map a.cell := by
  refine List.ext_getElem (by simp [Automaton.size]) fun s hs hs' => ?_
  rw [List.getElem_map, List.getElem_range, Array.getElem_toList]
  exact (Automaton.cell_of_lt hs).symm

theorem words_eq (a : Automaton) : words a = List.replicate 4 a.size ++
    (List.range a.size).map (fun s => (a.cell s).len) ++
    (List.range a.size).flatMap (fun s => (a.cell s).next.toList) ++
    (List.range a.size).map (fun s => (a.cell s).link) ++
    (List.range a.size).map (fun s => (a.cell s).pattern) := by
  simp only [words, Array.toList_map, toList_cells, List.map_map, List.flatMap_map,
    Function.comp_def]

@[simp] theorem length_next (a : Automaton) (s : StateId) :
    (a.cell s).next.toList.length = 256 := by
  rw [Vector.length_toList]

@[simp] theorem length_words (a : Automaton) : (words a).length = 4 + 259 * a.size := by
  simp only [words_eq, List.length_append, List.length_replicate, List.length_map,
    List.length_range, length_flatMap_of_length (length_next a)]
  omega

/-- Tables of one size that have the same words are equal. -/
theorem words_injective (hsize : a.size = b.size) (h : words a = words b) : a = b := by
  rw [words_eq, words_eq, ← hsize] at h
  obtain ⟨h, hpattern⟩ := List.append_inj' h (by simp)
  obtain ⟨h, hlink⟩ := List.append_inj' h (by simp)
  obtain ⟨h, hnext⟩ := List.append_inj h (by simp)
  obtain ⟨-, hlen⟩ := List.append_inj' h (by simp)
  have hcell : ∀ s ∈ List.range a.size, a.cell s = b.cell s := by
    intro s hs
    have hlt : s < (List.range a.size).length := by simpa using hs
    have hrow : (a.cell s).next = (b.cell s).next := by
      have ha := take_drop_flatMap (length_next a) (List.range a.size) hlt
      have hb := take_drop_flatMap (length_next b) (List.range a.size) hlt
      rw [hnext, hb, List.getElem_range] at ha
      exact Vector.toList_inj.1 ha.symm
    have := List.map_inj_left.1 hlen s hs
    have := List.map_inj_left.1 hlink s hs
    have := List.map_inj_left.1 hpattern s hs
    rcases ha : a.cell s
    rcases hb : b.cell s
    simp_all
  have hcells : a.cells.toList = b.cells.toList := by
    rw [toList_cells, toList_cells, ← hsize, List.map_congr_left hcell]
  exact congrArg Automaton.mk (Array.toList_inj.1 hcells)

@[simp] theorem size_tableAt (p : ByteArray) (n : Nat) : (tableAt p n).size = n :=
  Array.size_ofFn

theorem cell_tableAt {s : StateId} (h : s < n) : (tableAt p n).cell s =
    { next := Vector.ofFn fun c : Fin 256 => word p (4 + n + (256 * s + c.val))
      len := word p (4 + s)
      link := word p (4 + 257 * n + s)
      pattern := word p (4 + 258 * n + s) } := by
  rw [Automaton.cell_of_lt (Nat.lt_of_lt_of_eq h (size_tableAt p n).symm)]
  exact Array.getElem_ofFn _

theorem row_words (p : ByteArray) (k : Nat) :
    (Vector.ofFn fun c : Fin 256 => word p (k + c.val)).toList =
      (List.range' k 256).map (word p) := by
  refine List.ext_getElem (by simp) fun i hi hi' => ?_
  rw [Vector.getElem_toList, Vector.getElem_ofFn, List.getElem_map, List.getElem_range',
    Nat.one_mul]

theorem range'_append_of_eq {j k m : Nat} (h : j = k + m) (n : Nat) :
    List.range' k m ++ List.range' j n = List.range' k (m + n) := by
  rw [h, List.range'_append_1]

theorem flatMap_range' (k m n : Nat) :
    (List.range n).flatMap (fun i => List.range' (k + m * i) m) = List.range' k (m * n) := by
  induction n with
  | zero => rfl
  | succ n ih =>
    rw [List.range_succ, List.flatMap_append, ih, List.flatMap_singleton, Nat.mul_succ,
      List.range'_append_1]

/-- The rows of the table lie one behind the other. -/
theorem rows_tableAt (p : ByteArray) (n : Nat) :
    (List.range n).flatMap (fun s => ((tableAt p n).cell s).next.toList) =
      (List.range' (4 + n) (256 * n)).map (word p) := by
  rw [← flatMap_range', List.map_flatMap]
  refine List.flatMap_congr fun s hs => ?_
  rw [cell_tableAt (List.mem_range.1 hs), ← row_words]
  simp only [Nat.add_assoc]

/-- The words of the table in a payload are those of the payload. -/
theorem words_tableAt (hp : ∀ i, i < 4 → word p i = n) :
    words (tableAt p n) = (List.range (4 + 259 * n)).map (word p) := by
  have hhead : List.replicate 4 n = (List.range' 0 4).map (word p) := by
    rw [List.map_congr_left fun i hi => hp i (by simpa using (List.mem_range'_1.1 hi).2),
      List.map_const', List.length_range']
  have hcolumn : ∀ k, (List.range n).map (fun s => word p (k + s)) =
      (List.range' k n).map (word p) := by
    intro k
    rw [List.range'_eq_map_range, List.map_map]
    rfl
  have hmap : ∀ f g : StateId → Nat, (∀ s, s < n → f s = g s) →
      (List.range n).map f = (List.range n).map g := fun f g h =>
    List.map_congr_left fun s hs => h s (List.mem_range.1 hs)
  rw [words_eq, size_tableAt, hhead, rows_tableAt,
    hmap _ _ fun s hs => congrArg Cell.len (cell_tableAt hs),
    hmap _ _ fun s hs => congrArg Cell.link (cell_tableAt hs),
    hmap _ _ fun s hs => congrArg Cell.pattern (cell_tableAt hs)]
  simp only [hcolumn, ← List.map_append]
  rw [range'_append_of_eq (show 4 = 0 + 4 by omega),
    range'_append_of_eq (show 4 + n = 0 + (4 + n) by omega),
    range'_append_of_eq (show 4 + 257 * n = 0 + (4 + n + 256 * n) by omega),
    range'_append_of_eq (show 4 + 258 * n = 0 + (4 + n + 256 * n + n) by omega),
    List.range_eq_range', show 4 + n + 256 * n + n + n = 4 + 259 * n by omega]

/-- **Writing the table that a payload holds gives the payload.** -/
theorem payload_tableAt (hsize : p.size = 8 * (4 + 259 * n)) (hp : Announces p n) :
    payload (tableAt p n) = p := by
  unfold payload
  rw [words_tableAt hp.count, ofWords_map_word hsize]

/-- The words of an automaton are 64-bit words. -/
def Fits (a : Automaton) : Prop :=
  ∀ w ∈ words a, w < 2 ^ 64

theorem fits_tableAt (hp : Announces p n) : Fits (tableAt p n) := by
  intro w hw
  rw [words_tableAt hp.count] at hw
  obtain ⟨i, -, rfl⟩ := List.mem_map.1 hw
  exact word_lt p i

@[simp] theorem size_payload (a : Automaton) : (payload a).size = 8 * (4 + 259 * a.size) := by
  unfold payload
  rw [size_ofWords, length_words]

theorem word_payload (ha : Fits a) {i : Nat} (hi : i < 4) : word (payload a) i = a.size := by
  have hlen := length_words a
  unfold payload
  rw [word_ofWords ha (by omega)]
  apply Option.some.inj
  rw [← List.getElem?_eq_getElem, words_eq]
  simp only [List.append_assoc]
  rw [List.getElem?_append_left (by simpa using hi), List.getElem?_replicate, if_pos hi]

theorem announces_payload (hroot : StateId.root < a.size) (hcells : 256 * a.size < 2 ^ 64)
    (hfits : Fits a) : Announces (payload a) a.size :=
  ⟨fun _ => word_payload hfits, hroot, hcells⟩

/-- **The payload of an automaton holds the automaton.** -/
theorem tableAt_payload (ha : Fits a) : tableAt (payload a) a.size = a := by
  apply words_injective (size_tableAt _ _)
  rw [words_tableAt fun i => word_payload ha, payload, ← length_words, map_word_ofWords ha]

/-- An automaton that passes the check can be read from its payload. -/
theorem decodePayload_payload (hroot : StateId.root < a.size) (hcells : 256 * a.size < 2 ^ 64)
    (hfits : Fits a) (hdefect : a.defect? = none) : decodePayload ⟨payload a, .clean⟩ = .ok a := by
  have hsize := size_payload a
  have ha := tableAt_payload hfits
  have hp := announces_payload hroot hcells hfits
  refine decodePayload_eq_ok_iff.2 ⟨readTable_eq_ok_iff.2 ⟨rfl, a.size, ?_⟩, hdefect⟩
  simp only
  exact ⟨hsize, hp, ha.symm⟩

end Write

end PatternScan.Container
