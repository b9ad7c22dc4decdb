import PatternScan.Proofs.Container.Safety

/-!
# The language of payloads

`Layout p n` describes the payloads of tables of `n` states by their words alone: no table is built
and nothing is searched. `decodePayload_accepts_iff` says that exactly these payloads are accepted
when they arrive whole, and that a payload is what writes the automaton it was read as.
-/

namespace PatternScan.Container

section Layout

variable (p : ByteArray) (n : Nat)

/-- The length in the column of lengths. -/
def lenAt (s : Nat) : Nat :=
  word p (4 + s)

/-- The transition of a state on a byte. -/
def nextAt (s c : Nat) : Nat :=
  word p (4 + n + (256 * s + c))

/-- The link in the column of links. -/
def linkAt (s : Nat) : Nat :=
  word p (4 + 257 * n + s)

/-- Where a string of bytes leads from the root. -/
def leadsTo (w : List UInt8) : Nat :=
  w.foldl (fun s c => nextAt p n s c.toNat) 1

/-- No shorter string leads to the same state. -/
def Shortest (w : List UInt8) : Prop :=
  ∀ v, leadsTo p n v = leadsTo p n w → w.length ≤ v.length

/-- The words of a payload are those of a checked table of `n` states. -/
structure Layout : Prop where
  states : 2 ≤ n
  cells : 256 * n < 2 ^ 64
  size : p.size = 8 * (4 + 259 * n)
  header : ∀ i < 4, word p i = n
  target : ∀ s < n, ∀ c < 256, 1 ≤ nextAt p n s c ∧ nextAt p n s c < n
  reserved : ∀ s < 2, lenAt p s = 0 ∧ linkAt p n s = 0
  link : ∀ s < n, linkAt p n s ≠ 0 → linkAt p n s < n ∧ 0 < lenAt p (linkAt p n s) ∧
    (0 < lenAt p s → lenAt p (linkAt p n s) < lenAt p s)
  length : ∀ w, Shortest p n w → lenAt p (leadsTo p n w) ≤ w.length ∧
    lenAt p (linkAt p n (leadsTo p n w)) ≤ w.length

end Layout

variable {p : ByteArray} {n : Nat}

@[simp] theorem leadsTo_nil : leadsTo p n [] = StateId.root := rfl

@[simp] theorem leadsTo_append_singleton (w : List UInt8) (c : UInt8) :
    leadsTo p n (w ++ [c]) = nextAt p n (leadsTo p n w) c.toNat := by
  simp [leadsTo]

/-! ## The table behind the words -/

section Table

variable {s : StateId}

theorem len_tableAt (hs : s < n) : ((tableAt p n).cell s).len = lenAt p s := by
  rw [cell_tableAt hs, lenAt]

theorem link_tableAt (hs : s < n) : ((tableAt p n).cell s).link = linkAt p n s := by
  rw [cell_tableAt hs, linkAt]

theorem step_tableAt (hs : s < n) (c : UInt8) :
    ((tableAt p n).cell s).step c = nextAt p n s c.toNat := by
  rw [cell_tableAt hs, Cell.step, nextAt]
  exact Vector.getElem_ofFn _

/-- Strings lead to the same states in the table and in the words. -/
theorem after_tableAt (hn : 2 ≤ n)
    (htarget : ∀ s < n, ∀ c < 256, 1 ≤ nextAt p n s c ∧ nextAt p n s c < n) (w : List UInt8) :
    leadsTo p n w < n ∧ (tableAt p n).after w = leadsTo p n w := by
  induction w using List.reverseRecOn with
  | nil =>
    rw [leadsTo_nil, Automaton.after_nil]
    exact ⟨hn, rfl⟩
  | append_singleton w c ih =>
    obtain ⟨hlt, hafter⟩ := ih
    rw [leadsTo_append_singleton, Automaton.after_append_singleton, hafter, step_tableAt hlt]
    exact ⟨(htarget _ hlt _ c.toNat_lt).2, rfl⟩

theorem distance_tableAt (hn : 2 ≤ n)
    (htarget : ∀ s < n, ∀ c < 256, 1 ≤ nextAt p n s c ∧ nextAt p n s c < n) {d : Nat} :
    (tableAt p n).Distance s d ↔ ∃ w, Shortest p n w ∧ w.length = d ∧ leadsTo p n w = s := by
  have hafter := fun w => (after_tableAt hn htarget w).2
  constructor
  · intro h
    obtain ⟨w, rfl, rfl⟩ := h.exists_after
    refine ⟨w, fun v hv => h.le_length v ?_, rfl, (hafter w).symm⟩
    rw [hafter, hafter, hv]
  · rintro ⟨w, hw, rfl, rfl⟩
    refine ⟨⟨w, rfl, hafter w⟩, fun v hv => hw v ?_⟩
    rw [← hafter, hv]

end Table

/-! ## The conditions on the words are those on the table -/

section Conditions

theorem target_tableAt_iff : (∀ s < n, ∀ c < 256, 1 ≤ nextAt p n s c ∧ nextAt p n s c < n) ↔
    ∀ s, s < (tableAt p n).size → ∀ c, ((tableAt p n).cell s).step c ≠ StateId.sentinel ∧
      ((tableAt p n).cell s).step c < (tableAt p n).size := by
  rw [size_tableAt]
  constructor
  · intro h s hs c
    rw [step_tableAt hs]
    obtain ⟨hpos, hlt⟩ := h s hs _ c.toNat_lt
    exact ⟨Nat.ne_of_gt hpos, hlt⟩
  · intro h s hs c hc
    have hbyte : (UInt8.ofNat c).toNat = c := UInt8.toNat_ofNat_of_lt hc
    have hstep := h s hs (UInt8.ofNat c)
    rw [step_tableAt hs, hbyte] at hstep
    exact ⟨Nat.pos_of_ne_zero hstep.1, hstep.2⟩

theorem reserved_tableAt_iff (hn : 2 ≤ n) :
    (∀ s < 2, lenAt p s = 0 ∧ linkAt p n s = 0) ↔
      ∀ s, s = StateId.sentinel ∨ s = StateId.root → ((tableAt p n).cell s).len = 0 ∧
        ((tableAt p n).cell s).link = StateId.sentinel := by
  have hreserved : ∀ s : StateId, s = StateId.sentinel ∨ s = StateId.root ↔ s < 2 := by
    intro s
    rw [Nat.lt_succ_iff, Nat.le_one_iff_eq_zero_or_eq_one]
    rfl
  refine forall_congr' fun s => ?_
  rw [hreserved]
  refine forall_congr' fun hs => ?_
  have hs' := Nat.lt_of_lt_of_le hs hn
  rw [len_tableAt hs', link_tableAt hs']
  rfl

theorem link_tableAt_iff : (∀ s < n, linkAt p n s ≠ 0 → linkAt p n s < n ∧
      0 < lenAt p (linkAt p n s) ∧ (0 < lenAt p s → lenAt p (linkAt p n s) < lenAt p s)) ↔
    ∀ s, s < (tableAt p n).size → ((tableAt p n).cell s).link ≠ StateId.sentinel →
      ((tableAt p n).cell s).link < (tableAt p n).size ∧
        0 < ((tableAt p n).cell ((tableAt p n).cell s).link).len ∧
        (0 < ((tableAt p n).cell s).len →
          ((tableAt p n).cell ((tableAt p n).cell s).link).len < ((tableAt p n).cell s).len) := by
  rw [size_tableAt]
  refine forall_congr' fun s => forall_congr' fun hs => ?_
  rw [link_tableAt hs, len_tableAt hs]
  refine forall_congr' fun hne => and_congr_right fun hlt => ?_
  rw [len_tableAt hlt]

/-- The shortest strings of the words are the distances in the table. A state without a link stands
for the sentinel, whose length is 0. -/
theorem length_tableAt_iff (hn : 2 ≤ n)
    (htarget : ∀ s < n, ∀ c < 256, 1 ≤ nextAt p n s c ∧ nextAt p n s c < n)
    (hreserved : ∀ s < 2, lenAt p s = 0 ∧ linkAt p n s = 0)
    (hlink : ∀ s < n, linkAt p n s ≠ 0 → linkAt p n s < n) :
    (∀ w, Shortest p n w → lenAt p (leadsTo p n w) ≤ w.length ∧
      lenAt p (linkAt p n (leadsTo p n w)) ≤ w.length) ↔
    ∀ s d, (tableAt p n).Distance s d → ((tableAt p n).cell s).len ≤ d ∧
      (((tableAt p n).cell s).link ≠ StateId.sentinel →
        ((tableAt p n).cell ((tableAt p n).cell s).link).len ≤ d) := by
  have hlengths : ∀ w d, leadsTo p n w < n →
      (lenAt p (leadsTo p n w) ≤ d ∧ lenAt p (linkAt p n (leadsTo p n w)) ≤ d ↔
        ((tableAt p n).cell (leadsTo p n w)).len ≤ d ∧
          (((tableAt p n).cell (leadsTo p n w)).link ≠ StateId.sentinel →
            ((tableAt p n).cell ((tableAt p n).cell (leadsTo p n w)).link).len ≤ d)) := by
    intro w d hlt
    rw [len_tableAt hlt, link_tableAt hlt]
    refine and_congr_right fun _ => ?_
    by_cases hne : linkAt p n (leadsTo p n w) = 0
    · rw [hne, (hreserved 0 (by omega)).1]
      exact iff_of_true (Nat.zero_le d) fun h => absurd rfl h
    · rw [len_tableAt (hlink _ hlt hne)]
      exact ⟨fun h _ => h, fun h => h hne⟩
  constructor
  · intro h s d hd
    obtain ⟨w, hw, rfl, rfl⟩ := (distance_tableAt hn htarget).1 hd
    exact (hlengths w _ (after_tableAt hn htarget w).1).1 (h w hw)
  · intro h w hw
    apply (hlengths w _ (after_tableAt hn htarget w).1).2
    exact h _ _ ((distance_tableAt hn htarget).2 ⟨w, hw, rfl, rfl⟩)

end Conditions

/-- The words of a payload satisfy the conditions exactly if the table in it is sound. -/
theorem layout_iff : Layout p n ↔
    p.size = 8 * (4 + 259 * n) ∧ Announces p n ∧ (tableAt p n).Sound := by
  constructor
  · intro h
    refine ⟨h.size, ⟨h.header, h.states, h.cells⟩, ⟨target_tableAt_iff.1 h.target,
      (reserved_tableAt_iff h.states).1 h.reserved, link_tableAt_iff.1 h.link⟩, ?_⟩
    exact (length_tableAt_iff h.states h.target h.reserved fun s hs hne => (h.link s hs hne).1).1
      h.length
  · rintro ⟨hsize, hp, h⟩
    have hn : 2 ≤ n := hp.root_lt
    have htarget := target_tableAt_iff.2 h.target
    have hreserved := (reserved_tableAt_iff hn).2 h.reserved
    have hlink := link_tableAt_iff.2 h.link
    refine ⟨hn, hp.cells_lt, hsize, hp.count, htarget, hreserved, hlink, ?_⟩
    exact (length_tableAt_iff hn htarget hreserved fun s hs hne => (hlink s hs hne).1).2 h.length

/-- **Exactly the payloads of checked tables are accepted**, and each is the only payload of what it
is read as: writing that gives the payload back. -/
theorem decodePayload_accepts_iff (p : ByteArray) :
    ((∃ a, decodePayload ⟨p, .clean⟩ = .ok a) ↔ ∃ n, Layout p n) ∧
      ∀ a, decodePayload ⟨p, .clean⟩ = .ok a → payload a = p := by
  have hok : ∀ a, decodePayload ⟨p, .clean⟩ = .ok a ↔ ∃ n, Layout p n ∧ a = tableAt p n := by
    intro a
    rw [decodePayload_eq_ok_iff, readTable_eq_ok_iff]
    simp only [true_and, layout_iff]
    constructor
    · rintro ⟨⟨n, hsize, hp, rfl⟩, hdefect⟩
      have hroot : StateId.root < (tableAt p n).size := by simpa using hp.root_lt
      exact ⟨n, ⟨hsize, hp, (Automaton.defect?_eq_none_iff hroot).1 hdefect⟩, rfl⟩
    · rintro ⟨n, ⟨hsize, hp, hsound⟩, rfl⟩
      have hroot : StateId.root < (tableAt p n).size := by simpa using hp.root_lt
      exact ⟨⟨n, hsize, hp, rfl⟩, (Automaton.defect?_eq_none_iff hroot).2 hsound⟩
  refine ⟨⟨?_, ?_⟩, fun a ha => ?_⟩
  · rintro ⟨a, ha⟩
    obtain ⟨n, hn, -⟩ := (hok a).1 ha
    exact ⟨n, hn⟩
  · rintro ⟨n, hn⟩
    exact ⟨tableAt p n, (hok _).2 ⟨n, hn, rfl⟩⟩
  · obtain ⟨n, hn, rfl⟩ := (hok a).1 ha
    obtain ⟨hsize, hp, -⟩ := layout_iff.1 hn
    exact payload_tableAt hsize hp

theorem layout_everyByte : ∃ n, Layout (payload everyByte) n :=
  (decodePayload_accepts_iff (payload everyByte)).1.1 ⟨everyByte, decodePayload_everyByte⟩

end PatternScan.Container
