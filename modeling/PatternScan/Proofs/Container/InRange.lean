import PatternScan.Proofs.Container.Columns
import PatternScan.Proofs.Container.Queue
import PatternScan.Proofs.Container.Safety

/-!
# Decoding stays inside its arrays

`Guarded.check` is the check of a table on its columns, with a guard at every access and every
product: the words in the columns are whatever a container holds, and the later checks read at
places that the earlier ones have to have let through. `gives_check` goes through them in order:
the transitions are inside the table, so the search for distances stays inside the columns; the
links are, so the lengths of their targets can be read. `decodePayload_inRange` says of every stream
that decoding it with guards goes right.
-/

namespace PatternScan.Container

namespace Guarded

open Automaton

/-! ## The check -/

/-- Looks for a transition that leads outside the table or to the sentinel. -/
def checkTargets (c : Columns) : Guarded Unit :=
  match c.next.findIdx? fun t => t = StateId.sentinel || c.len.size ≤ t with
  | none => pure ()
  | some i => do
    let t ← access c.next i
    throw (.defect (.badTarget (i / 256) (i % 256) t))

/-- A reserved state neither accepts nor links. -/
def checkReserved (c : Columns) (s : StateId) : Guarded Unit := do
  let len ← access c.len s
  if len ≠ 0 then throw (.defect (.reservedState s))
  else
    let link ← access c.link s
    if link ≠ StateId.sentinel then throw (.defect (.reservedState s)) else pure ()

/-- A link leads to an accepting state with a shorter pattern. The length of its target is read only
if the target is a state. -/
def checkLink (c : Columns) (s : StateId) : Guarded Unit := do
  let link ← access c.link s
  if link = StateId.sentinel then pure ()
  else if c.len.size ≤ link then throw (.defect (.badLink s link))
  else
    let target ← access c.len link
    if target = 0 then throw (.defect (.badLink s link))
    else
      let len ← access c.len s
      if len ≠ 0 && len ≤ target then throw (.defect (.linkNotShorter s)) else pure ()

/-- The length at the target of a link; the sentinel's is not read. -/
def linkedLen (c : Columns) (link : StateId) : Guarded Nat :=
  if link = StateId.sentinel then pure 0 else access c.len link

/-- What is reported in a state is no longer than the shortest way to it. -/
def checkLength (c : Columns) (depths : Array (Option Nat)) (s : StateId) : Guarded Unit := do
  match ← access depths s with
  | none => pure ()
  | some depth =>
    let link ← access c.link s
    let len ← access c.len s
    let linked ← linkedLen c link
    if depth < max len linked then throw (.defect (.matchTooLong s (max len linked) depth))
    else pure ()

/-- The checks in their order. -/
def check (c : Columns) : Guarded Unit := do
  checkTargets c
  [StateId.sentinel, StateId.root].forM (checkReserved c)
  (List.range c.link.size).forM (checkLink c)
  let depths ← search c.next c.len.size
  (List.range c.len.size).forM (checkLength c depths)

/-- Puts the columns together to a table if their lengths allow it. -/
def assemble (c : Columns) : Guarded Automaton :=
  if c.next.size = 256 * c.len.size ∧ c.pattern.size = c.len.size ∧ c.link.size = c.len.size then
    pure c.table
  else wrong

/-- The automaton in a payload. -/
def decode (s : ByteStream) : Guarded Automaton := do
  let c ← readColumns s
  check c
  assemble c

/-! ## Single checks -/

/-- What a check says of a defect. -/
def verdict : Option Defect → Except Failure Unit
  | none => .ok ()
  | some d => .error (.defect d)

theorem gives_forM {f : StateId → Guarded Unit} {g : StateId → Option Defect} {xs : List StateId}
    (h : ∀ s ∈ xs, Gives (f s) (verdict (g s)) []) :
    Gives (xs.forM f) (verdict (xs.findSome? g)) [] := by
  induction xs with
  | nil => exact gives_pure ()
  | cons s xs ih =>
    have hs := h s List.mem_cons_self
    rw [List.findSome?_cons]
    cases hg : g s with
    | some d =>
      rw [hg] at hs
      exact hs.bind_error
    | none =>
      rw [hg] at hs
      exact hs.bind_nil (ih fun u hu => h u (List.mem_cons_of_mem _ hu))

theorem gives_ite (p : Prop) [Decidable p] (d : Defect) :
    Gives (if p then throw (.defect d) else pure ()) (verdict (if p then some d else none)) [] := by
  split
  · exact gives_throw _
  · exact gives_pure ()

section Checks

variable {c : Columns} {s : StateId}

theorem place_lt (hc : c.Aligned) (hs : s < c.len.size) {j : Nat}
    (hj : j < (c.table.cell s).next.toArray.size) : 256 * s + j < c.next.size := by
  rw [Vector.size_toArray] at hj
  rw [hc.next]
  exact Nat.lt_of_lt_of_le (Nat.add_lt_add_left hj _)
    (Nat.mul_le_mul_left 256 (Nat.succ_le_of_lt hs))

theorem getElem_row (hc : c.Aligned) (hs : s < c.len.size) {j : Nat}
    (hj : j < (c.table.cell s).next.toArray.size) :
    (c.table.cell s).next.toArray[j] = getElem c.next (256 * s + j) (place_lt hc hs hj) := by
  simp only [← hc.row_table hs, Array.getElem_extract]

/-- A row is good if all its places in the column are. -/
theorem badByte?_row_eq_none (hc : c.Aligned) (hs : s < c.len.size)
    (h : ∀ i (hi : i < c.next.size), i < 256 * (s + 1) →
      (decide (c.next[i] = StateId.sentinel) || decide (c.len.size ≤ c.next[i])) = false) :
    c.table.badByte? (c.table.cell s) = none := by
  rw [badByte?, Array.findIdx?_eq_none_iff, Columns.size_table]
  intro t ht
  obtain ⟨j, hj, rfl⟩ := Array.mem_iff_getElem.1 ht
  have hj' : j < 256 := Nat.lt_of_lt_of_eq hj (Vector.size_toArray _)
  rw [getElem_row hc hs]
  exact h _ _ (by omega)

/-- The place of a bad transition tells its state and its byte: all before it are good. -/
theorem badTarget?_of_findIdx? (hc : c.Aligned) {i : Nat} (hi : i < c.next.size)
    (hfind : (c.next.findIdx? fun t => t = StateId.sentinel || c.len.size ≤ t) = some i) :
    c.table.badTarget? = some (.badTarget (i / 256) (i % 256) c.next[i]) := by
  obtain ⟨_, hbad, hbefore⟩ := Array.findIdx?_eq_some_iff_getElem.1 hfind
  have hnext := hc.next
  have hs : i / 256 < c.len.size := by omega
  have hplace : 256 * (i / 256) + i % 256 = i := Nat.div_add_mod i 256
  have hlt : ∀ u, i % 256 < (c.table.cell u).next.toArray.size := fun u => by
    rw [Vector.size_toArray]
    exact Nat.mod_lt i (by decide)
  have hget : getElem (c.table.cell (i / 256)).next.toArray (i % 256) (hlt _) = c.next[i] := by
    rw [getElem_row hc hs]
    simp only [hplace]
  have hbyte : c.table.badByte? (c.table.cell (i / 256)) = some (i % 256) := by
    refine Array.findIdx?_eq_some_iff_getElem.2 ⟨hlt _, ?_, fun j hj => ?_⟩
    · rw [hget, Columns.size_table]
      exact hbad
    · rw [getElem_row hc hs, Columns.size_table]
      exact hbefore _ (by omega)
  have hstate : (c.table.cells.findIdx? fun cell => (c.table.badByte? cell).isSome) =
      some (i / 256) := by
    refine Array.findIdx?_eq_some_iff_getElem.2
      ⟨Nat.lt_of_lt_of_eq hs (Columns.size_table c).symm, ?_, fun u hu => ?_⟩
    · rw [← cell_of_lt, hbyte]
      rfl
    · rw [← cell_of_lt, Option.not_isSome_iff_eq_none]
      refine badByte?_row_eq_none hc (Nat.lt_trans hu hs) fun k hk hlt => ?_
      exact Bool.eq_false_iff.2 (hbefore k (by omega))
  unfold badTarget?
  rw [hstate]
  simp only [Option.bind_eq_bind, Option.bind_some, hbyte]
  rw [Array.getD, dif_pos (hlt _)]
  exact congrArg (fun t => some (Defect.badTarget (i / 256) (i % 256) t)) hget

theorem gives_checkTargets (hc : c.Aligned) :
    Gives (checkTargets c) (verdict c.table.badTarget?) [] := by
  unfold checkTargets
  split
  · rename_i hfind
    have hnone : c.table.badTarget? = none := by
      refine badTarget?_eq_none_iff.2 fun s hs => badByte?_eq_none_iff.1 ?_
      refine badByte?_row_eq_none hc (Columns.size_table c ▸ hs) fun i hi _ => ?_
      exact Array.findIdx?_eq_none_iff.1 hfind _ (Array.getElem_mem hi)
    rw [hnone]
    exact gives_pure ()
  · rename_i i hfind
    obtain ⟨hi, -, -⟩ := Array.findIdx?_eq_some_iff_getElem.1 hfind
    rw [badTarget?_of_findIdx? hc hi hfind]
    exact (gives_access hi).bind_nil (gives_throw _)

theorem gives_checkReserved (hc : c.Aligned) (hs : s < c.len.size) :
    Gives (checkReserved c s) (verdict (if (c.table.cell s).len ≠ 0 ||
      (c.table.cell s).link ≠ StateId.sentinel then some (.reservedState s) else none)) [] := by
  have hs' : s < c.link.size := hc.link.symm ▸ hs
  refine (gives_access hs).bind_nil ?_
  rw [Columns.len_table hs, hc.link_table hs']
  by_cases hlen : c.len[s] = 0
  · rw [if_neg (not_not.2 hlen)]
    refine (gives_access hs').bind_nil ?_
    have := gives_ite (c.link[s] ≠ StateId.sentinel) (.reservedState s)
    simpa [hlen] using this
  · rw [if_pos hlen, if_pos (by simp [hlen])]
    exact gives_throw _

theorem gives_checkLink (hc : c.Aligned) (hs : s < c.len.size) :
    Gives (checkLink c s) (verdict (c.table.linkDefect? s (c.table.cell s))) [] := by
  have hs' : s < c.link.size := hc.link.symm ▸ hs
  refine (gives_access hs').bind_nil ?_
  unfold linkDefect?
  rw [hc.link_table hs', Columns.size_table]
  by_cases hzero : c.link[s] = StateId.sentinel
  · rw [if_pos hzero, if_pos hzero]
    exact gives_pure ()
  rw [if_neg hzero, if_neg hzero]
  by_cases hle : c.len.size ≤ c.link[s]
  · rw [if_pos hle, if_pos (by simp [hle])]
    exact gives_throw _
  -- the target is a state, so its length can be read
  have hlt := Nat.not_le.1 hle
  rw [if_neg hle]
  refine (gives_access hlt).bind_nil ?_
  simp only [Columns.len_table hlt, Columns.len_table hs]
  by_cases htarget : c.len[c.link[s]] = 0
  · rw [if_pos htarget, if_pos (by simp [htarget])]
    exact gives_throw _
  · rw [if_neg htarget, if_neg (by simp [hle, htarget])]
    exact (gives_access hs).bind_nil (gives_ite _ _)

theorem gives_checkLength (hc : c.Aligned) (hs : s < c.len.size) {depths : Array (Option Nat)}
    (hdepths : depths.size = c.len.size)
    (hlink : (c.table.cell s).link ≠ StateId.sentinel → (c.table.cell s).link < c.len.size) :
    Gives (checkLength c depths s) (verdict (do
      let depth ← depths.getD s none
      let len := c.table.longestMatch (c.table.cell s)
      if depth < len then some (.matchTooLong s len depth) else none)) [] := by
  have hs' : s < depths.size := hdepths ▸ hs
  have hlinks : s < c.link.size := hc.link.symm ▸ hs
  refine (gives_access hs').bind_nil ?_
  rw [Array.getD_eq_getD_getElem?, Array.getElem?_eq_getElem hs', Option.getD_some]
  cases depths[s] with
  | none => exact gives_pure ()
  | some depth =>
    refine (gives_access hlinks).bind_nil ((gives_access hs).bind_nil ?_)
    rw [hc.link_table hlinks] at hlink
    have hlinked : Gives (linkedLen c c.link[s])
        (.ok (if c.link[s] = StateId.sentinel then 0 else (c.table.cell c.link[s]).len)) [] := by
      unfold linkedLen
      split
      · exact gives_pure 0
      · rename_i hne
        rw [Columns.len_table (hlink hne)]
        exact gives_access (hlink hne)
    refine hlinked.bind_nil ?_
    simp only [Option.bind_eq_bind, Option.bind_some, longestMatch, Columns.len_table hs,
      hc.link_table hlinks]
    exact gives_ite _ _

end Checks

/-! ## All checks -/

section All

variable {c : Columns}

theorem holdsRows_table (hc : c.Aligned) (h : c.table.badTarget? = none) :
    HoldsRows c.table c.next := by
  have hsize := Columns.size_table c
  have htarget := badTarget?_eq_none_iff.1 h
  refine ⟨hsize ▸ hc.next, hsize ▸ hc.cells_lt, fun s hs => hc.row_table (hsize ▸ hs), ?_⟩
  exact ⟨hsize ▸ hc.root_lt, fun s hs byte => (htarget s hs byte).2⟩

theorem gives_checkAllReserved (hc : c.Aligned) :
    Gives ([StateId.sentinel, StateId.root].forM (checkReserved c)) (verdict c.table.badReserved?)
      [] := by
  rw [badReserved?, ← List.findSome?_guard, List.map_findSome?]
  refine gives_forM fun s hs => ?_
  have hlt : s < c.len.size := by
    have hroot := hc.root_lt
    rcases List.mem_pair.1 hs with rfl | rfl
    · exact Nat.lt_trans (by decide) hroot
    · exact hroot
  have := gives_checkReserved hc hlt
  rwa [Function.comp_apply, Option.guard, apply_ite (Option.map Defect.reservedState)]

theorem gives_checkAllLinks (hc : c.Aligned) :
    Gives ((List.range c.link.size).forM (checkLink c)) (verdict c.table.badLink?) [] := by
  rw [badLink?, Columns.size_table, hc.link]
  exact gives_forM fun s hs => gives_checkLink hc (List.mem_range.1 hs)

/-- Once the links have been let through, all of them lead to states. -/
theorem gives_checkAllLengths (hc : c.Aligned) (hlink : c.table.badLink? = none) :
    Gives ((List.range c.len.size).forM (checkLength c c.table.depths))
      (verdict c.table.badLength?) [] := by
  have hsize := Columns.size_table c
  rw [badLength?, hsize]
  refine gives_forM fun s hs => ?_
  have hs := List.mem_range.1 hs
  refine gives_checkLength hc hs ((size_depths c.table).trans hsize) fun hne => ?_
  exact hsize ▸ (badLink?_eq_none_iff.1 hlink s (hsize.symm ▸ hs) hne).1

/-- A check with others behind it, which are made if it finds nothing. -/
theorem gives_check_bind {x : Guarded Unit} {f : Unit → Guarded Unit} {d : Option Defect}
    {d' : Unit → Option Defect} (hx : Gives x (verdict d) [])
    (hf : d = none → ∃ taken, Gives (f ()) (verdict (d' ())) taken ∧ taken.Nodup) :
    ∃ taken, Gives (x >>= f) (verdict (d.orElse d')) taken ∧ taken.Nodup := by
  cases d with
  | some d => exact ⟨[], hx.bind_error, List.nodup_nil⟩
  | none =>
    obtain ⟨taken, hgives, hnodup⟩ := hf rfl
    exact ⟨taken, hx.bind_nil hgives, hnodup⟩

/-- **The check goes right on columns of one length**, whatever stands in them, and says what the
check of the table says. No state is taken from the queue twice. -/
theorem gives_check (hc : c.Aligned) : ∃ taken,
    Gives (check c) (verdict c.table.defect?) taken ∧ taken.Nodup := by
  have horder : c.table.defect? = c.table.badTarget?.orElse fun _ =>
      c.table.badReserved?.orElse fun _ => c.table.badLink?.orElse fun _ => c.table.badLength? := by
    unfold defect?
    cases c.table.badTarget? <;> rfl
  rw [horder]
  refine gives_check_bind (gives_checkTargets hc) fun htarget => ?_
  refine gives_check_bind (gives_checkAllReserved hc) fun _ => ?_
  refine gives_check_bind (gives_checkAllLinks hc) fun hlink => ?_
  -- now the transitions and the links are known to stay inside the table
  obtain ⟨taken, hsearch, hnodup, -⟩ := gives_search (holdsRows_table hc htarget)
  rw [Columns.size_table] at hsearch
  refine ⟨taken, hsearch.bind_last ?_, hnodup⟩
  exact gives_checkAllLengths hc hlink

theorem gives_assemble (hc : c.Aligned) : Gives (assemble c) (.ok c.table) [] := by
  rw [assemble, if_pos ⟨hc.next, hc.pattern, hc.link⟩]
  exact gives_pure _

end All

end Guarded

/-! ## Every stream -/

/-- Decoding with guards goes right with every stream and has the result of decoding. -/
theorem gives_decode (s : ByteStream) : ∃ taken,
    Guarded.Gives (Guarded.decode s) (decodePayload s) taken ∧ taken.Nodup := by
  have hread := Guarded.tracks_readColumns s
  unfold Guarded.decode decodePayload
  cases htable : readTable s with
  | error e =>
    rw [htable] at hread
    exact ⟨[], Guarded.Gives.bind_error hread, List.nodup_nil⟩
  | ok a =>
    rw [htable] at hread
    obtain ⟨c, hgives, rfl, hc⟩ := hread
    obtain ⟨taken, hcheck, hnodup⟩ := Guarded.gives_check hc
    refine ⟨taken, hgives.bind_nil ?_, hnodup⟩
    cases hdefect : c.table.defect? with
    | some d =>
      rw [hdefect] at hcheck
      simp only [bind, Except.bind, hdefect]
      exact hcheck.bind_error
    | none =>
      rw [hdefect] at hcheck
      simp only [bind, Except.bind, hdefect]
      refine hcheck.bind_last ?_
      exact Guarded.gives_assemble hc

/-- Counts that agree are turned down if their 256-fold takes more than 64 bits. -/
theorem readSize_tooLarge {s : ByteStream} {n : Nat} (hsize : 32 ≤ s.bytes.size)
    (hcounts : ∀ i < 4, word s.bytes i = n) (hn : UInt64.size ≤ 256 * n) :
    readSize s = .error (.defect (.tooLarge n)) := by
  have hword : ∀ (field : Field) (i : Nat), i < 4 → readWord s field (8 * i) = .ok n :=
    fun field i hi => hcounts i hi ▸ readWord_of_le (by omega)
  have hroot : ¬n ≤ StateId.root := fun h => by
    have := Nat.mul_le_mul_left 256 h
    exact absurd (Nat.le_trans hn this) (by decide)
  unfold readSize
  rw [hword _ 0 (by decide), hword _ 1 (by decide), hword _ 2 (by decide), hword _ 3 (by decide)]
  simp only [bind, Except.bind, ne_eq, not_true_eq_false, decide_false, Bool.or_self,
    Bool.false_eq_true, if_false, if_neg hroot, if_pos hn]
  rfl

/-- **Decoding stays inside its arrays with every stream**, whatever its counts and words are: no
access, no slice and no number goes wrong, the result is an automaton or the reason why there is
none, and the search for distances takes no state from its queue twice. Counts whose 256-fold is not
a word are turned down. -/
theorem decodePayload_inRange (s : ByteStream) :
    (∃ taken, (Guarded.decode s).run.run [] = some (decodePayload s, taken) ∧ taken.Nodup) ∧
      ∀ n, 32 ≤ s.bytes.size → (∀ i < 4, word s.bytes i = n) → UInt64.size ≤ 256 * n →
        decodePayload s = .error (.defect (.tooLarge n)) := by
  refine ⟨?_, fun n hsize hcounts hn => ?_⟩
  · obtain ⟨taken, hgives, hnodup⟩ := gives_decode s
    exact ⟨taken, hgives [], hnodup⟩
  · rw [decodePayload, readTable, readSize_tooLarge hsize hcounts hn]
    rfl

/-- The 256-fold of the four counts is 0 in 64 bits. -/
theorem decodePayload_wrapping :
    decodePayload ⟨ofWords (List.replicate 4 (2 ^ 56)), .clean⟩ =
      .error (.defect (.tooLarge (2 ^ 56))) := by
  refine (decodePayload_inRange _).2 (2 ^ 56) ?_ (fun i hi => ?_) (by decide)
  · show 32 ≤ (ofWords _).size
    rw [size_ofWords, List.length_replicate]
  · rw [word_ofWords (fun w hw => List.eq_of_mem_replicate hw ▸ by decide) (by simpa using hi)]
    exact List.getElem_replicate _

end PatternScan.Container
