import PatternScan.Proofs.Container.Guarded
import PatternScan.Proofs.Container.Payload

/-!
# Reading the columns of a table with guards

`Guarded.readColumns` reads a payload as far as the check of its table, byte by byte, and leaves the
columns as they lie there. `tracks_readColumns` says that nothing goes wrong with any stream: it
comes to the same as `readTable`, the columns have the lengths that belong to one number of states
(`Columns.Aligned`), and that number times 256 is a word, as the header is turned down otherwise.
-/

namespace PatternScan.Container

/-- The columns of a table, one entry after the other. -/
structure Columns where
  len : Array Nat
  next : Array Nat
  link : Array Nat
  pattern : Array Nat

namespace Columns

/-- The table with these columns. -/
def table (c : Columns) : Automaton :=
  ofColumns c.len.size c.len c.next c.link c.pattern

/-- The columns are those of one number of states, which has room for the reserved ones and whose
transitions can be counted. -/
structure Aligned (c : Columns) : Prop where
  next : c.next.size = 256 * c.len.size
  link : c.link.size = c.len.size
  pattern : c.pattern.size = c.len.size
  root_lt : StateId.root < c.len.size
  cells_lt : 256 * c.len.size < UInt64.size

variable {c : Columns} {s : StateId}

@[simp] theorem size_table (c : Columns) : c.table.size = c.len.size :=
  Array.size_ofFn

theorem cell_table (h : s < c.len.size) : c.table.cell s =
    { next := Vector.ofFn fun i : Fin 256 => c.next.getD (256 * s + i.val) 0
      len := c.len.getD s 0
      link := c.link.getD s 0
      pattern := c.pattern.getD s 0 } := by
  rw [Automaton.cell_of_lt (Nat.lt_of_lt_of_eq h (size_table c).symm)]
  exact Array.getElem_ofFn _

theorem len_table (h : s < c.len.size) : (c.table.cell s).len = c.len[s] := by
  rw [cell_table h]
  exact dif_pos h

theorem Aligned.link_table (hc : c.Aligned) (h : s < c.link.size) :
    (c.table.cell s).link = c.link[s] := by
  rw [cell_table (hc.link ▸ h)]
  exact dif_pos h

/-- The row of a state is a slice of the transitions. -/
theorem Aligned.row_table (hc : c.Aligned) (h : s < c.len.size) :
    c.next.extract (256 * s) (256 * (s + 1)) = (c.table.cell s).next.toArray := by
  have hle := Nat.mul_le_mul_left 256 (Nat.succ_le_of_lt h)
  have hnext := hc.next
  rw [cell_table h]
  refine Array.ext (by simp; omega) fun i hi hi' => ?_
  have hi256 : i < 256 := by simpa using hi'
  rw [Array.getElem_extract, Vector.getElem_toArray, Vector.getElem_ofFn, Array.getD,
    dif_pos (by omega)]
  rfl

end Columns

namespace Guarded

/-! ## Reading -/

/-- The number in `n` bytes. -/
def littleEndian (bytes : ByteArray) (i : Nat) : Nat → Guarded Nat
  | 0 => pure 0
  | n + 1 => do
    let b ← access bytes.data i
    let rest ← littleEndian bytes (i + 1) n
    return b.toNat + 256 * rest

/-- The word at an offset of a stream. -/
def readWord (s : ByteStream) (field : Field) (i : Nat) : Guarded Nat :=
  if i + 8 ≤ s.bytes.size then do
    let n ← littleEndian s.bytes i 8
    word n
  else throw (.ofEnding field s.ending)

/-- Reads `n` words behind those in `words`. -/
def readWordsOnto (s : ByteStream) (field : Field) : Nat → Nat → Array Nat → Guarded (Array Nat)
  | 0, _, words => pure words
  | n + 1, i, words => do
    let w ← readWord s field i
    readWordsOnto s field n (i + 8) (words.push w)

/-- The `n` words from an offset on. -/
def readWords (s : ByteStream) (field : Field) (n i : Nat) : Guarded (Array Nat) :=
  readWordsOnto s field n i #[]

/-- The number of states. -/
def readSize (s : ByteStream) : Guarded Nat := do
  let len ← readWord s (.count .len) 0
  let next ← readWord s (.count .next) 8
  let link ← readWord s (.count .link) 16
  let pattern ← readWord s (.count .pattern) 24
  if next ≠ len || link ≠ len || pattern ≠ len then
    throw (.defect (.countsDisagree len next link pattern))
  if len ≤ StateId.root then throw (.defect (.missingRoot len))
  if UInt64.size ≤ 256 * len then throw (.defect (.tooLarge len))
  return len

/-- The columns of a payload, and its end. -/
def readColumns (s : ByteStream) : Guarded Columns := do
  let n ← readSize s
  let cells ← word (256 * n)
  let len ← readWords s (.column .len) n 32
  let next ← readWords s (.column .next) cells (32 + 8 * n)
  let link ← readWords s (.column .link) n (32 + 8 * (257 * n))
  let pattern ← readWords s (.column .pattern) n (32 + 8 * (258 * n))
  if 32 + 8 * (259 * n) < s.bytes.size then throw (.defect .extraData)
  if s.ending ≠ .clean then throw (.ofEnding .trailing s.ending)
  return ⟨len, next, link, pattern⟩

/-! ## Nothing goes wrong -/

section Read

variable {s : ByteStream} {field : Field}

theorem gives_littleEndian {bytes : ByteArray} {i n : Nat} (h : i + n ≤ bytes.size) :
    Gives (littleEndian bytes i n) (.ok (PatternScan.littleEndian bytes i n)) [] := by
  induction n generalizing i with
  | zero => exact gives_pure 0
  | succ n ih =>
    have hi : i < bytes.size := by omega
    refine (gives_access (show i < bytes.data.size from hi)).bind_nil ((ih (by omega)).bind_nil ?_)
    rw [PatternScan.littleEndian, dif_pos hi]
    exact gives_pure _

theorem tracks_readWord (s : ByteStream) (field : Field) (i : Nat) :
    Tracks (· = ·) (readWord s field i) (Container.readWord s field i) := by
  unfold readWord Container.readWord
  split
  · rename_i h
    refine ⟨_, (gives_littleEndian h).bind_nil (gives_word ?_), rfl⟩
    exact littleEndian_lt s.bytes i 8
  · exact tracks_throw _

theorem tracks_readWordsOnto (s : ByteStream) (field : Field) (n i : Nat) (words : Array Nat) :
    Tracks (fun ws ws' => ws = ws' ∧ ws.size = words.size + n) (readWordsOnto s field n i words)
      (Container.readWordsOnto s field n i words) := by
  induction n generalizing i words with
  | zero => exact tracks_pure ⟨rfl, rfl⟩
  | succ n ih =>
    have hstep : Container.readWordsOnto s field (n + 1) i words =
        Container.readWord s field i >>= fun w =>
          Container.readWordsOnto s field n (i + 8) (words.push w) := by
      rw [Container.readWordsOnto]
      cases Container.readWord s field i <;> rfl
    rw [hstep]
    refine (tracks_readWord s field i).bind fun w w' hw => ?_
    subst hw
    refine (ih (i + 8) (words.push w)).mono fun ws ws' h => ⟨h.1, ?_⟩
    rw [h.2, Array.size_push]
    omega

theorem tracks_readWords (s : ByteStream) (field : Field) (n i : Nat) :
    Tracks (fun ws ws' => ws = ws' ∧ ws.size = n) (readWords s field n i)
      (Container.readWords s field n i) := by
  refine (tracks_readWordsOnto s field n i #[]).mono fun ws ws' h => ⟨h.1, ?_⟩
  rw [h.2, Array.size_empty, Nat.zero_add]

/-- A number of states is let through only if its 256-fold is a word. -/
theorem tracks_readSize (s : ByteStream) :
    Tracks (fun n n' => n = n' ∧ StateId.root < n ∧ 256 * n < UInt64.size) (readSize s)
      (Container.readSize s) := by
  unfold readSize Container.readSize
  refine (tracks_readWord s _ _).bind fun len len' h => ?_
  subst h
  refine (tracks_readWord s _ _).bind fun next next' h => ?_
  subst h
  refine (tracks_readWord s _ _).bind fun link link' h => ?_
  subst h
  refine (tracks_readWord s _ _).bind fun pattern pattern' h => ?_
  subst h
  refine Tracks.ite_throw fun _ => Tracks.ite_throw fun hroot => Tracks.ite_throw fun hcells => ?_
  exact tracks_pure ⟨rfl, Nat.not_le.1 hroot, Nat.not_le.1 hcells⟩

/-- **Reading goes right with every stream.** -/
theorem tracks_readColumns (s : ByteStream) :
    Tracks (fun c a => a = c.table ∧ c.Aligned) (readColumns s) (readTable s) := by
  unfold readColumns readTable
  refine (tracks_readSize s).bind fun n n' hn => ?_
  obtain ⟨rfl, hroot, hcells⟩ := hn
  refine Tracks.bind_left (gives_word hcells) ?_
  refine (tracks_readWords s _ _ _).bind fun len len' hlen => ?_
  obtain ⟨rfl, hlen⟩ := hlen
  refine (tracks_readWords s _ _ _).bind fun next next' hnext => ?_
  obtain ⟨rfl, hnext⟩ := hnext
  refine (tracks_readWords s _ _ _).bind fun link link' hlink => ?_
  obtain ⟨rfl, hlink⟩ := hlink
  refine (tracks_readWords s _ _ _).bind fun pattern pattern' hpattern => ?_
  obtain ⟨rfl, hpattern⟩ := hpattern
  refine Tracks.ite_throw fun _ => Tracks.ite_throw fun _ => tracks_pure ⟨?_, ?_⟩
  · rw [Columns.table, hlen]
  · subst hlen
    exact ⟨hnext, hlink, hpattern, hroot, hcells⟩

end Read

end Guarded

end PatternScan.Container
