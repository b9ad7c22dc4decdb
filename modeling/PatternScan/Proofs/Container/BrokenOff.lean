import PatternScan.Error
import PatternScan.Proofs.Container.Safety

/-!
# Payloads that break off

A payload is a sequence of fields whose widths depend on the number of states. When its stream stops
early, the field with the first missing byte is to blame. This is shown for one field at a time:
`FailsIn` says that a reader of some fields fails in the one where the stream stops, and two readers
one after the other fail in the fields of both (`FailsIn.bind`). `decodePayload_brokenOff` has the
errors of all streams that follow a payload for a while and then stop.
-/

namespace PatternScan.Container

/-! ## Fields -/

/-- The bytes that a field takes in a payload of `n` states. -/
def Field.width (n : Nat) : Field → Nat
  | count _ => 8
  | column .len => 8 * n
  | column .next => 8 * (256 * n)
  | column .link => 8 * n
  | column .pattern => 8 * n
  | trailing => 0

/-- The counts in the header, in their order. -/
def header : List Field :=
  [.count .len, .count .next, .count .link, .count .pattern]

/-- The columns behind the header, in their order. -/
def columns : List Field :=
  [.column .len, .column .next, .column .link, .column .pattern]

/-- The bytes that fields take together. -/
def width (n : Nat) : List Field → Nat
  | [] => 0
  | field :: fields => field.width n + width n fields

/-- Of fields that lie one behind the other, the one with the byte at offset `k`. -/
def fieldAt (n : Nat) : List Field → Nat → Field
  | [], _ => .trailing
  | field :: fields, k =>
    if k < field.width n then field else fieldAt n fields (k - field.width n)

/-- The error of a stream that stops before all bytes of the part `name` are there. -/
def errorIn (name : String) : Ending → Error
  | .clean => .decode ("unexpected end of stream while reading " ++ name)
  | .fault f =>
    match f.kind with
    | .unexpectedEnd => .decode ("unexpected end of stream while reading " ++ name)
    | .invalid => .decode ("corrupt stream while reading " ++ name ++ ": " ++ f.text)
    | .other => .io f.text

section Fields

variable {n : Nat}

theorem width_singleton (field : Field) : width n [field] = field.width n :=
  Nat.add_zero _

theorem width_append (fields fields' : List Field) :
    width n (fields ++ fields') = width n fields + width n fields' := by
  induction fields with
  | nil => exact (Nat.zero_add _).symm
  | cons field fields ih => rw [List.cons_append, width, width, ih, Nat.add_assoc]

theorem width_header : width n header = 32 := rfl

theorem width_columns : width n columns = 8 * (259 * n) := by
  simp only [columns, width, Field.width]
  omega

theorem fieldAt_append (fields fields' : List Field) (k : Nat) :
    fieldAt n (fields ++ fields') k = if k < width n fields then fieldAt n fields k
      else fieldAt n fields' (k - width n fields) := by
  induction fields generalizing k with
  | nil => rfl
  | cons field fields ih =>
    rw [List.cons_append, fieldAt, fieldAt, ih, width]
    by_cases h : k < field.width n
    · rw [if_pos h, if_pos h, if_pos (by omega)]
    · rw [if_neg h, if_neg h, Nat.sub_add_eq]
      exact if_congr (by omega) rfl rfl

theorem fieldAt_singleton {field : Field} {k : Nat} (h : k < field.width n) :
    fieldAt n [field] k = field :=
  if_pos h

theorem ofFailure_ofEnding (field : Field) (ending : Ending) :
    Error.ofFailure (.ofEnding field ending) = errorIn field.name ending := by
  rcases ending with _ | ⟨kind, text⟩
  · rfl
  · cases kind <;> rfl

end Fields

/-! ## Readers of fields -/

section Readers

variable {α β : Type} {s : ByteStream} {n i j : Nat} {field : Field} {fields fields' : List Field}

/-- A reader of `fields` from offset `i` on fails in the one where the stream stops. -/
def FailsIn (s : ByteStream) (n i : Nat) (fields : List Field) (r : Except Failure α) : Prop :=
  i ≤ s.bytes.size → s.bytes.size < i + width n fields →
    r = .error (.ofEnding (fieldAt n fields (s.bytes.size - i)) s.ending)

theorem failsIn_nil (r : Except Failure α) : FailsIn s n i [] r :=
  fun hi hlt => absurd hlt (Nat.not_lt.2 hi)

/-- Two readers one after the other: the second one only reads what the first one leaves. -/
theorem FailsIn.bind {r : Except Failure α} {g : α → Except Failure β} {a : α}
    (hj : i + width n fields = j) (hr : FailsIn s n i fields r)
    (hok : j ≤ s.bytes.size → r = .ok a)
    (hg : j ≤ s.bytes.size → FailsIn s n j fields' (g a)) :
    FailsIn s n i (fields ++ fields') (r >>= g) := by
  intro hi hlt
  subst hj
  rw [width_append] at hlt
  rw [fieldAt_append]
  rcases Nat.lt_or_ge s.bytes.size (i + width n fields) with hshort | hlong
  · rw [hr hi hshort, if_pos (by omega)]
    rfl
  · have herror := hg hlong hlong (by omega)
    rw [hok hlong, if_neg (by omega), ← Nat.sub_add_eq]
    exact herror

theorem failsIn_readWord (hwidth : field.width n = 8) :
    FailsIn s n i [field] (readWord s field i) := by
  intro hi hlt
  rw [width_singleton, hwidth] at hlt
  rw [readWord, if_neg (by omega), fieldAt_singleton (by omega)]

/-- Words that are not all there cannot be read. -/
theorem readWordsOnto_eq_error {m : Nat} (hi : i ≤ s.bytes.size)
    (hlt : s.bytes.size < i + 8 * m) (words : Array Nat) :
    readWordsOnto s field m i words = .error (.ofEnding field s.ending) := by
  induction m generalizing i words with
  | zero => exact absurd hlt (Nat.not_lt.2 hi)
  | succ m ih =>
    unfold readWordsOnto readWord
    by_cases hword : i + 8 ≤ s.bytes.size
    · rw [if_pos hword]
      exact ih hword (by omega) _
    · rw [if_neg hword]

theorem failsIn_readWords {m : Nat} (hwidth : field.width n = 8 * m) :
    FailsIn s n i [field] (readWords s field m i) := by
  intro hi hlt
  rw [width_singleton, hwidth] at hlt
  rw [readWords, readWordsOnto_eq_error hi hlt, fieldAt_singleton (by omega)]

theorem failsIn_readSize (s : ByteStream) (n : Nat) : FailsIn s n 0 header (readSize s) := by
  refine FailsIn.bind rfl (failsIn_readWord rfl) readWord_of_le fun _ => ?_
  refine FailsIn.bind rfl (failsIn_readWord rfl) readWord_of_le fun _ => ?_
  refine FailsIn.bind rfl (failsIn_readWord rfl) readWord_of_le fun _ => ?_
  exact FailsIn.bind rfl (failsIn_readWord rfl) readWord_of_le fun _ => failsIn_nil _

theorem failsIn_readTable (hn : 32 ≤ s.bytes.size → Announces s.bytes n) :
    FailsIn s n 0 (header ++ columns) (readTable s) := by
  have hread : ∀ {field : Field} {i j m : Nat} (k : Nat), i = 8 * k → i + 8 * m = j →
      j ≤ s.bytes.size → readWords s field m i = .ok (column s.bytes k m) := by
    intro field i j m k hi hj hle
    exact readWords_of_le hi (by omega)
  -- the widths of the columns are not computed by unfolding, as `n` is a variable
  have hnext : 32 + 8 * n + width n [.column .next] = 32 + 8 * (257 * n) := by
    rw [width_singleton, Field.width]
    omega
  have hlink : 32 + 8 * (257 * n) + width n [.column .link] = 32 + 8 * (258 * n) := by
    rw [width_singleton, Field.width]
    omega
  have hpattern : 32 + 8 * (258 * n) + width n [.column .pattern] = 32 + 8 * (259 * n) := by
    rw [width_singleton, Field.width]
    omega
  refine FailsIn.bind (j := 32) rfl (failsIn_readSize s n)
    (fun h => readSize_eq_ok_iff.2 ⟨h, hn h⟩) fun _ => ?_
  refine FailsIn.bind (j := 32 + 8 * n) rfl (failsIn_readWords rfl)
    (hread 4 rfl rfl) fun _ => ?_
  refine FailsIn.bind hnext (failsIn_readWords rfl)
    (hread (4 + n) (by omega) (by omega)) fun _ => ?_
  refine FailsIn.bind hlink (failsIn_readWords rfl)
    (hread (4 + 257 * n) (by omega) (by omega)) fun _ => ?_
  exact FailsIn.bind hpattern (failsIn_readWords rfl)
    (hread (4 + 258 * n) (by omega) (by omega)) fun _ => failsIn_nil _

end Readers

/-! ## Streams that follow a payload -/

section Streams

variable {p : ByteArray} {n k : Nat}

theorem announces_extract_iff (h32 : 32 ≤ k) (hk : k ≤ p.size) :
    Announces (p.extract 0 k) n ↔ Announces p n := by
  have hword : ∀ i < 4, word (p.extract 0 k) i = word p i := fun i hi =>
    littleEndian_extract (by omega) hk
  constructor
  · intro h
    exact ⟨fun i hi => (hword i hi).symm.trans (h.count i hi), h.root_lt, h.cells_lt⟩
  · intro h
    exact ⟨fun i hi => (hword i hi).trans (h.count i hi), h.root_lt, h.cells_lt⟩

theorem decodePayload_of_readTable_eq_error {s : ByteStream} {e : Failure}
    (h : readTable s = .error e) : decodePayload s = .error e := by
  unfold decodePayload
  rw [h]
  rfl

/-- A payload that is cut off fails in the field of the first byte that is missing. -/
theorem decodePayload_extract (hsize : p.size = 8 * (4 + 259 * n)) (hp : Announces p n)
    (hk : k < p.size) (ending : Ending) : decodePayload ⟨p.extract 0 k, ending⟩ =
      .error (.ofEnding (fieldAt n (header ++ columns) k) ending) := by
  have hcut : (p.extract 0 k).size = k := by
    rw [ByteArray.size_extract]
    omega
  have hn : 32 ≤ (p.extract 0 k).size → Announces (p.extract 0 k) n := fun h32 =>
    (announces_extract_iff (hcut ▸ h32) (Nat.le_of_lt hk)).2 hp
  have hlt : (p.extract 0 k).size < 0 + width n (header ++ columns) := by
    rw [width_append, width_header, width_columns]
    omega
  have herror := failsIn_readTable (s := ⟨p.extract 0 k, ending⟩) hn (Nat.zero_le _) hlt
  rw [Nat.sub_zero, hcut] at herror
  exact decodePayload_of_readTable_eq_error herror

theorem decodePayload_fault (hsize : p.size = 8 * (4 + 259 * n)) (hp : Announces p n) (f : Fault) :
    decodePayload ⟨p, .fault f⟩ = .error (.ofEnding .trailing (.fault f)) := by
  apply decodePayload_of_readTable_eq_error
  rw [readTable_of_announces hp (Nat.le_of_eq hsize.symm),
    if_neg (Nat.not_lt.2 (Nat.le_of_eq hsize)), if_pos (by simp)]

/-- Bytes behind a payload are too many, however the stream stops. -/
theorem decodePayload_append (hsize : p.size = 8 * (4 + 259 * n)) (hp : Announces p n)
    {q : ByteArray} (hq : 0 < q.size) (ending : Ending) :
    decodePayload ⟨p ++ q, ending⟩ = .error (.defect .extraData) := by
  have hlt : 8 * (4 + 259 * n) < (p ++ q).size := by
    rw [ByteArray.size_append]
    omega
  have hn : Announces (p ++ q) n := by
    apply (announces_extract_iff (k := p.size) (by omega) (by omega)).1
    rwa [ByteArray.extract_append_eq_left rfl]
  apply decodePayload_of_readTable_eq_error
  rw [readTable_of_announces hn (Nat.le_of_lt hlt), if_pos hlt]

/-- **No stream that stops early or goes on too long holds an automaton.** Inside a payload the
field of the first missing byte is to blame; where a payload ends, only a clean end is right. -/
theorem decodePayload_brokenOff (hsize : p.size = 8 * (4 + 259 * n)) (hp : Announces p n) :
    (∀ k < p.size, ∀ ending,
      (decodePayload ⟨p.extract 0 k, ending⟩).mapError Error.ofFailure =
        .error (errorIn (fieldAt n (header ++ columns) k).name ending)) ∧
    (∀ f, (decodePayload ⟨p, .fault f⟩).mapError Error.ofFailure =
      .error (errorIn "trailing data" (.fault f))) ∧
    (∀ q ending, 0 < q.size →
      (decodePayload ⟨p ++ q, ending⟩).mapError Error.ofFailure =
        .error (.decode "unexpected data after the last array")) ∧
    ∀ ending a, decodePayload ⟨p, ending⟩ = .ok a → ending = .clean := by
  refine ⟨fun k hk ending => ?_, fun f => ?_, fun q ending hq => ?_, fun ending a ha => ?_⟩
  · rw [decodePayload_extract hsize hp hk, Except.mapError, ofFailure_ofEnding]
  · rw [decodePayload_fault hsize hp, Except.mapError, ofFailure_ofEnding]
    rfl
  · rw [decodePayload_append hsize hp hq]
    rfl
  · exact (readTable_eq_ok_iff.1 (decodePayload_eq_ok_iff.1 ha).1).1

theorem decodePayload_brokenOff_everyByte :
    ((payload everyByte).size = 8 * (4 + 259 * 3) ∧ Announces (payload everyByte) 3) ∧
      (decodePayload ⟨(payload everyByte).extract 0 80, .fault ⟨.invalid, "bad block"⟩⟩).mapError
        Error.ofFailure =
          .error (.decode "corrupt stream while reading transition table: bad block") := by
  have hsize : (payload everyByte).size = 8 * (4 + 259 * 3) := size_payload everyByte
  have hp : Announces (payload everyByte) 3 :=
    announces_payload (by decide) (by decide) fits_everyByte
  have hcut := (decodePayload_brokenOff hsize hp).1 80 (by omega) (.fault ⟨.invalid, "bad block"⟩)
  exact ⟨⟨hsize, hp⟩, hcut⟩

end Streams

end PatternScan.Container
