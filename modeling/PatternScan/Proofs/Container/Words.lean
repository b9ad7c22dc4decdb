import PatternScan.Container.Words
import PatternScan.Proofs.Bytes

/-!
# Words and bytes

The bytes of words are cut into the words again (`word_ofWords`), and bytes that are cut into words
are the bytes of these words (`ofWords_map_word`). Reading words from a stream succeeds exactly if
they are all there (`readWords_eq_ok_iff`).
-/

namespace PatternScan.Container

open LittleEndian (number length_bytes number_bytes bytes_number)

/-! ## Chunks of one length -/

section Chunks

variable {α β : Type} {f : α → List β} {k : Nat}

theorem take_drop_flatMap (hf : ∀ x, (f x).length = k) (xs : List α) {i : Nat}
    (hi : i < xs.length) : ((xs.flatMap f).drop (k * i)).take k = f xs[i] := by
  induction xs generalizing i with
  | nil => exact absurd hi (Nat.not_lt_zero _)
  | cons x xs ih =>
    rw [List.flatMap_cons]
    cases i with
    | zero => rw [Nat.mul_zero, List.drop_zero, List.take_left' (hf x), List.getElem_cons_zero]
    | succ i =>
      rw [Nat.mul_succ, Nat.add_comm, ← List.drop_drop, List.drop_left' (hf x),
        ih (Nat.lt_of_succ_lt_succ hi), List.getElem_cons_succ]

theorem length_flatMap_of_length (hf : ∀ x, (f x).length = k) (xs : List α) :
    (xs.flatMap f).length = k * xs.length := by
  induction xs with
  | nil => rfl
  | cons x xs ih =>
    rw [List.flatMap_cons, List.length_append, hf, ih, List.length_cons, Nat.mul_succ, Nat.add_comm]

theorem flatMap_range_take_drop (k : Nat) (ys : List β) (m : Nat) :
    (List.range m).flatMap (fun i => (ys.drop (k * i)).take k) = ys.take (k * m) := by
  induction m with
  | zero => rw [Nat.mul_zero, List.take_zero, List.range_zero, List.flatMap_nil]
  | succ m ih =>
    rw [List.range_succ, List.flatMap_append, ih, List.flatMap_singleton, ← List.take_add,
      Nat.mul_succ]

end Chunks

/-! ## Words -/

/-- The word with the given index. -/
def word (bytes : ByteArray) (i : Nat) : Nat :=
  littleEndian bytes (8 * i) 8

theorem word_eq_number {bytes : ByteArray} {i : Nat} (h : 8 * i + 8 ≤ bytes.size) :
    word bytes i = number ((bytes.data.toList.drop (8 * i)).take 8) :=
  littleEndian_eq_number h

theorem word_lt (bytes : ByteArray) (i : Nat) : word bytes i < 2 ^ 64 :=
  littleEndian_lt bytes (8 * i) 8

theorem toList_foldl_pushWord (ws : List Nat) (out : ByteArray) :
    (ws.foldl pushWord out).data.toList =
      out.data.toList ++ ws.flatMap (LittleEndian.bytes 8) := by
  induction ws generalizing out with
  | nil => exact (List.append_nil _).symm
  | cons w ws ih =>
    rw [List.foldl_cons, ih, pushWord, toList_pushLittleEndian, List.flatMap_cons,
      List.append_assoc]

theorem toList_ofWords (ws : List Nat) :
    (ofWords ws).data.toList = ws.flatMap (LittleEndian.bytes 8) :=
  toList_foldl_pushWord ws .empty

@[simp] theorem size_ofWords (ws : List Nat) : (ofWords ws).size = 8 * ws.length := by
  rw [← length_flatMap_of_length (length_bytes 8) ws, ← toList_ofWords]
  rfl

/-- **The bytes of words hold these words.** -/
theorem word_ofWords {ws : List Nat} (hws : ∀ w ∈ ws, w < 2 ^ 64) {i : Nat} (hi : i < ws.length) :
    word (ofWords ws) i = ws[i] := by
  have hsize := size_ofWords ws
  rw [word_eq_number (by omega), toList_ofWords, take_drop_flatMap (length_bytes 8) ws hi]
  exact number_bytes (hws _ (List.getElem_mem hi))

theorem map_word_ofWords {ws : List Nat} (hws : ∀ w ∈ ws, w < 2 ^ 64) :
    (List.range ws.length).map (word (ofWords ws)) = ws := by
  refine List.ext_getElem (by simp) fun i hi hi' => ?_
  rw [List.getElem_map, List.getElem_range, word_ofWords hws hi']

/-- **Bytes that can be cut into words are the bytes of these words.** -/
theorem ofWords_map_word {p : ByteArray} {m : Nat} (hp : p.size = 8 * m) :
    ofWords ((List.range m).map (word p)) = p := by
  have hchunk : ∀ i ∈ List.range m,
      LittleEndian.bytes 8 (word p i) = (p.data.toList.drop (8 * i)).take 8 := by
    intro i hi
    have hle : 8 * i + 8 ≤ p.size := by
      have := List.mem_range.1 hi
      omega
    have hlen : ((p.data.toList.drop (8 * i)).take 8).length = 8 := by
      simp only [List.length_take, List.length_drop, length_data_toList]
      omega
    rw [word_eq_number hle]
    exact bytes_number hlen
  refine ByteArray.ext (Array.toList_inj.1 ?_)
  rw [toList_ofWords, List.flatMap_map, List.flatMap_congr hchunk, flatMap_range_take_drop, ← hp]
  exact List.take_length

/-! ## Reading -/

variable {s : ByteStream} {field : Field}

theorem readWord_eq_ok_iff {i w : Nat} : readWord s field i = .ok w ↔
    i + 8 ≤ s.bytes.size ∧ w = littleEndian s.bytes i 8 := by
  unfold readWord
  split
  · rename_i h
    simp [h, eq_comm]
  · rename_i h
    simp [h]

theorem readWord_of_le {i : Nat} (h : i + 8 ≤ s.bytes.size) :
    readWord s field i = .ok (littleEndian s.bytes i 8) :=
  readWord_eq_ok_iff.2 ⟨h, rfl⟩

theorem readWordsOnto_eq_ok_iff {n i : Nat} (hi : i ≤ s.bytes.size) {words ws : Array Nat} :
    readWordsOnto s field n i words = .ok ws ↔ i + 8 * n ≤ s.bytes.size ∧
      ws.toList = words.toList ++ (List.range' i n 8).map fun j => littleEndian s.bytes j 8 := by
  induction n generalizing i words with
  | zero =>
    unfold readWordsOnto
    rw [List.range'_zero, List.map_nil, List.append_nil, Array.toList_inj]
    simp [hi, eq_comm]
  | succ n ih =>
    unfold readWordsOnto
    rw [List.range'_succ, List.map_cons]
    cases hword : readWord s field i with
    | error e =>
      refine iff_of_false (by simp) fun ⟨hle, _⟩ => ?_
      exact nomatch hword.symm.trans (readWord_of_le (by omega))
    | ok w =>
      obtain ⟨hle, hw⟩ := readWord_eq_ok_iff.1 hword
      simp only
      rw [hw, ih hle, Array.toList_push, List.append_assoc, List.singleton_append,
        show i + 8 + 8 * n = i + 8 * (n + 1) by omega]

/-- The `m` words from the index `k` on. -/
def column (p : ByteArray) (k m : Nat) : Array Nat :=
  Array.ofFn fun i : Fin m => word p (k + i.val)

@[simp] theorem size_column (p : ByteArray) (k m : Nat) : (column p k m).size = m :=
  Array.size_ofFn

theorem getElem_column (p : ByteArray) {k m i : Nat} (hi : i < (column p k m).size) :
    (column p k m)[i] = word p (k + i) :=
  Array.getElem_ofFn _

theorem toList_column (p : ByteArray) (k m : Nat) :
    (column p k m).toList = (List.range' (8 * k) m 8).map fun j => littleEndian p j 8 := by
  refine List.ext_getElem (by simp) fun i hi hi' => ?_
  rw [List.getElem_map, List.getElem_range', Array.getElem_toList, getElem_column, word,
    Nat.mul_add]

theorem getD_column (p : ByteArray) {k m i : Nat} (hi : i < m) :
    (column p k m).getD i 0 = word p (k + i) := by
  rw [Array.getD, dif_pos (by rwa [size_column])]
  exact getElem_column p _

/-- Words can be read from a stream exactly if they are all there. -/
theorem readWords_eq_ok_iff {n i k : Nat} (hi : i = 8 * k) (hle : i ≤ s.bytes.size)
    {ws : Array Nat} : readWords s field n i = .ok ws ↔
      8 * (k + n) ≤ s.bytes.size ∧ ws = column s.bytes k n := by
  subst hi
  rw [readWords, readWordsOnto_eq_ok_iff hle, List.nil_append, ← toList_column, Array.toList_inj,
    Nat.mul_add]

theorem readWords_of_le {n i k : Nat} (hi : i = 8 * k) (hle : 8 * (k + n) ≤ s.bytes.size) :
    readWords s field n i = .ok (column s.bytes k n) :=
  (readWords_eq_ok_iff hi (by omega)).2 ⟨hle, rfl⟩

end PatternScan.Container
