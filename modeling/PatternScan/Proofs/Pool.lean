import Mathlib.Data.List.Induction
import Mathlib.Data.List.Nodup
import PatternScan.Pool.Desk

/-!
# Every history of a pool

`Pool.Accounts` says of a pool and the identities of the buffers that are out what holds at any
time: the free buffers are empty, no buffer is in two places, a free buffer is small unless it has
never been lent, and the counters tell how many buffers are free and how many are out. Lending and
taking back keep it (`Accounts.acquire`, `Accounts.release`), so it holds along every history of a
desk, however many holders there are and in whatever order they act (`Desk.inOrder_run`).

What a holder has in hand depends on his own actions alone: `Desk.written` reads it off the history,
and `Desk.inHand_run` says that this is what his buffer holds. `Desk.accounts_run` puts together
what can be seen from outside.
-/

namespace PatternScan

/-! ## Buffers -/

namespace Buffer

theorem append_eq_foldl (b : Buffer) (os : Array Occurrence) :
    b.append os = os.toList.foldl push b := by
  rw [append, Array.foldl_toList]

@[simp] theorem id_append (b : Buffer) (os : Array Occurrence) : (b.append os).id = b.id := by
  rw [append_eq_foldl]
  generalize os.toList = rest
  induction rest generalizing b with
  | nil => rfl
  | cons o rest ih => exact ih (b.push o)

theorem records_append (b : Buffer) (os : Array Occurrence) :
    (b.append os).records = b.records ++ os := by
  apply Array.toList_inj.1
  rw [append_eq_foldl, Array.toList_append]
  generalize os.toList = rest
  induction rest generalizing b with
  | nil => simp
  | cons o rest ih =>
    have hpush : (b.push o).records = b.records.push o := rfl
    rw [List.foldl_cons, ih, hpush, Array.toList_push, List.append_assoc, List.singleton_append]

end Buffer

/-! ## Accounts of a pool -/

namespace Pool

variable {first : List Buffer} {taken out : List Nat} {p : Pool} {b : Buffer}

/-- The accounts of a pool that began with the buffers `first`, when `taken` are the identities of
all buffers lent so far and `out` those of the buffers that are out. -/
structure Accounts (first : List Buffer) (taken : List Nat) (p : Pool) (out : List Nat) :
    Prop where
  cleared : ∀ b ∈ p.free, b.len = 0
  available : .ofNat p.available + p.stats.hits = .ofNat first.length + p.stats.released
  loans : p.stats.hits + p.stats.misses =
    p.stats.released + p.stats.discarded + .ofNat out.length
  nodup : (out ++ p.free.map Buffer.id).Nodup
  /-- Every identity was given out, so the next one is new. -/
  issued : ∀ id ∈ out ++ p.free.map Buffer.id, id < p.nextId
  kept : ∀ b ∈ p.free, b.capacity ≤ maxKeptCapacity ∨ b ∈ first ∧ b.id ∉ taken

theorem accounts_withCapacity (prewarm capacity : Nat) :
    (withCapacity prewarm capacity).Accounts (withCapacity prewarm capacity).free [] [] := by
  have hids : (withCapacity prewarm capacity).free.map Buffer.id = List.range prewarm := by
    simp [withCapacity, Function.comp_def]
  refine ⟨?_, rfl, rfl, ?_, ?_, fun b hb => .inr ⟨hb, List.not_mem_nil⟩⟩
  · simp [withCapacity, Buffer.len]
  · rw [List.nil_append, hids]
    exact List.nodup_range
  · rw [List.nil_append, hids]
    exact fun id hid => List.mem_range.1 hid

namespace Accounts

/-- The order in which the buffers were lent does not matter. -/
theorem perm {out' : List Nat} (h : p.Accounts first taken out) (hp : out.Perm out') :
    p.Accounts first taken out' where
  cleared := h.cleared
  available := h.available
  loans := by rw [h.loans, hp.length_eq]
  nodup := (hp.append_right _).nodup_iff.1 h.nodup
  issued id hid := h.issued id ((hp.append_right _).mem_iff.2 hid)
  kept := h.kept

theorem records_acquire (h : p.Accounts first taken out) : p.acquire.1.records = #[] := by
  unfold acquire
  split
  · rename_i b free hfree
    have hlen : b.len = 0 := h.cleared b (by simp [hfree])
    exact Array.eq_empty_of_size_eq_zero hlen
  · rfl

/-- **Lending a buffer.** -/
theorem acquire (h : p.Accounts first taken out) :
    p.acquire.2.Accounts first (taken ++ [p.acquire.1.id]) (p.acquire.1.id :: out) := by
  obtain ⟨free, capacity, nextId, stats⟩ := p
  obtain ⟨hcleared, havailable, hloans, hnodup, hissued, hkept⟩ := h
  cases free with
  | cons b free =>
    -- the identity moves from the free buffers to those that are out
    have hperm : (out ++ (b :: free).map Buffer.id).Perm
        ((b.id :: out) ++ free.map Buffer.id) := List.perm_middle
    simp only [Pool.acquire, Pool.available, PoolStats.countAcquire, if_true,
      List.length_cons, UInt64.ofNat_add] at havailable hloans ⊢
    have hne : ∀ v ∈ free, v.id ≠ b.id := by
      intro v hv heq
      have := (List.nodup_append.1 hnodup).2.1
      rw [List.map_cons, List.nodup_cons] at this
      exact this.1 (heq ▸ List.mem_map_of_mem hv)
    refine ⟨fun v hv => hcleared v (List.mem_cons_of_mem _ hv), ?_, ?_, hperm.nodup_iff.1 hnodup,
      fun id hid => hissued id (hperm.mem_iff.2 hid), fun v hv => ?_⟩
    · simp only [Pool.available]
      grind
    · simp only [List.length_cons, UInt64.ofNat_add]
      grind
    · refine (hkept v (List.mem_cons_of_mem _ hv)).imp_right fun ⟨hfirst, hnew⟩ => ⟨hfirst, ?_⟩
      rw [List.mem_append, List.mem_singleton]
      exact not_or.2 ⟨hnew, hne v hv⟩
  | nil =>
    simp only [List.map_nil, List.append_nil] at hnodup hissued
    have hfresh : nextId ∉ out := fun hmem => Nat.lt_irrefl _ (hissued _ hmem)
    simp only [Pool.acquire, Pool.available, PoolStats.countAcquire] at havailable hloans ⊢
    refine ⟨nofun, havailable, ?_, ?_, ?_, nofun⟩
    · simp only [List.length_cons, UInt64.ofNat_add, Bool.false_eq_true, if_false]
      grind
    · rw [List.map_nil, List.append_nil]
      exact List.nodup_cons.2 ⟨hfresh, hnodup⟩
    · simp only [List.map_nil, List.append_nil, List.mem_cons, forall_eq_or_imp]
      exact ⟨Nat.lt_succ_self _, fun id hid => Nat.lt_succ_of_lt (hissued id hid)⟩

/-- **Taking a buffer back**, kept or not. -/
theorem release (h : p.Accounts first taken (b.id :: out)) :
    (p.release b).Accounts first taken out := by
  obtain ⟨free, capacity, nextId, stats⟩ := p
  obtain ⟨hcleared, havailable, hloans, hnodup, hissued, hkept⟩ := h
  have hperm : ((b.id :: out) ++ free.map Buffer.id).Perm
      (out ++ (b.clear :: free).map Buffer.id) := List.perm_middle.symm
  simp only [List.length_cons, UInt64.ofNat_add] at hloans
  unfold Pool.release
  split
  · refine ⟨hcleared, havailable, ?_, (List.nodup_cons.1 hnodup).2, fun id hid => ?_, hkept⟩
    · simp only [PoolStats.countRelease, Bool.false_eq_true, if_false]
      grind
    · exact hissued id (List.mem_cons_of_mem _ hid)
  · rename_i hsize
    have hcap : b.capacity ≤ maxKeptCapacity := by simpa [oversized] using hsize
    refine ⟨?_, ?_, ?_, hperm.nodup_iff.1 hnodup, fun id hid => hissued id (hperm.mem_iff.2 hid),
      ?_⟩
    · exact List.forall_mem_cons.2 ⟨rfl, hcleared⟩
    · simp only [Pool.available, PoolStats.countRelease, List.length_cons, UInt64.ofNat_add,
        if_true] at havailable ⊢
      grind
    · simp only [PoolStats.countRelease, if_true]
      grind
    · exact List.forall_mem_cons.2 ⟨.inl hcap, hkept⟩

end Accounts

end Pool

/-! ## The desk -/

namespace Desk

variable {d : Desk} {name holder : String} {b : Buffer} {history : List (String × Action)}

/-- A desk with a new pool. -/
def opened (prewarm capacity : Nat) : Desk :=
  ⟨Pool.withCapacity prewarm capacity, []⟩

/-- The identities of the buffers that are out. -/
def out (d : Desk) : List Nat :=
  d.held.map (·.2.id)

/-- The identities of the buffers that a history takes out of the pool, in order. -/
def lent (d : Desk) : List (String × Action) → List Nat
  | [] => []
  | (holder, .acquire) :: history => d.pool.acquire.1.id :: (d.step holder .acquire).1.lent history
  | (holder, .use u) :: history => (d.step holder (.use u)).1.lent history

/-! ### Loans -/

theorem lookup_cons_eq (name holder : String) (b : Buffer) (held : List (String × Buffer)) :
    ((name, b) :: held).lookup holder = if name = holder then some b else held.lookup holder := by
  rw [List.lookup_cons]
  by_cases h : holder = name
  · simp [h]
  · rw [beq_eq_false_iff_ne.2 h, if_neg (Ne.symm h)]

theorem lookup_others (d : Desk) (name holder : String) :
    (d.others name).lookup holder = if name = holder then none else d.loan? holder := by
  unfold others loan?
  induction d.held with
  | nil => simp
  | cons e held ih =>
    obtain ⟨n, b⟩ := e
    rw [List.filter_cons, lookup_cons_eq]
    by_cases hn : n = name
    · subst hn
      rw [if_neg (by simp), ih]
      by_cases hholder : n = holder <;> simp [hholder]
    · rw [if_pos (by simpa using hn), lookup_cons_eq, ih]
      by_cases hholder : n = holder
      · subst hholder
        simp [Ne.symm hn]
      · simp [hholder]

theorem loan?_cons_others (pool : Pool) (d : Desk) (name holder : String) (b : Buffer) :
    (Desk.mk pool ((name, b) :: d.others name)).loan? holder =
      if name = holder then some b else d.loan? holder := by
  rw [loan?, lookup_cons_eq, lookup_others]
  split <;> rfl

theorem step_use_of_loan (h : d.loan? holder = some b) (u : Use) :
    d.step holder (.use u) = d.useLoan holder b u := by
  unfold step
  rw [h]

theorem step_use_of_none (h : d.loan? holder = none) (u : Use) :
    d.step holder (.use u) = (d, .noLoan) := by
  unfold step
  rw [h]

theorem others_of_loan?_eq_none (h : d.loan? holder = none) : d.others holder = d.held := by
  refine List.filter_eq_self.2 fun e he => ?_
  have hne : holder ≠ e.1 := by simpa using List.lookup_eq_none_iff.1 h e he
  simpa using hne.symm

/-- Where every holder has one buffer, striking a holder strikes his loan and nothing else. -/
theorem held_perm (hd : (d.held.map Prod.fst).Nodup) (h : d.loan? holder = some b) :
    d.held.Perm ((holder, b) :: d.others holder) := by
  obtain ⟨before, after, hheld, -⟩ := List.lookup_eq_some_iff.1 h
  have hothers : d.others holder = before ++ after := by
    rw [hheld, List.map_append, List.map_cons, List.nodup_middle, List.nodup_cons,
      List.mem_append, not_or] at hd
    have hkeep : ∀ es : List (String × Buffer), holder ∉ es.map Prod.fst →
        ∀ e ∈ es, (e.1 != holder) = true := by
      intro es hes e he
      have hne : e.1 ≠ holder := fun heq => hes (heq ▸ List.mem_map_of_mem he)
      simpa using hne
    rw [others, hheld, List.filter_append, List.filter_cons, if_neg (by simp)]
    exact congrArg₂ _ (List.filter_eq_self.2 (hkeep _ hd.1.1))
      (List.filter_eq_self.2 (hkeep _ hd.1.2))
  rw [hothers, hheld]
  exact List.perm_middle

/-! ### The invariant -/

/-- Every holder has one buffer, and the accounts of the pool are in order. -/
structure InOrder (first : List Buffer) (taken : List Nat) (d : Desk) : Prop where
  holders : (d.held.map Prod.fst).Nodup
  accounts : d.pool.Accounts first taken d.out

namespace InOrder

variable {first : List Buffer} {taken : List Nat}

theorem holders_others (h : d.InOrder first taken) (holder : String) :
    ((d.others holder).map Prod.fst).Nodup :=
  List.Nodup.sublist (List.filter_sublist.map _) h.holders

theorem holders_cons_others (h : d.InOrder first taken) (holder : String) (b : Buffer) :
    (((holder, b) :: d.others holder).map Prod.fst).Nodup := by
  rw [List.map_cons, List.nodup_cons]
  refine ⟨fun hmem => ?_, h.holders_others holder⟩
  obtain ⟨e, he, heq⟩ := List.mem_map.1 hmem
  have := (List.mem_filter.1 he).2
  simp [heq] at this

/-- The accounts with the loan of a holder in front. -/
theorem accounts_loan (h : d.InOrder first taken) (hb : d.loan? holder = some b) :
    d.pool.Accounts first taken (b.id :: (d.others holder).map (·.2.id)) :=
  h.accounts.perm ((held_perm h.holders hb).map _)

theorem update (h : d.InOrder first taken) (hb : d.loan? holder = some b) {b' : Buffer}
    (hid : b'.id = b.id) : (d.update holder b').1.InOrder first taken where
  holders := h.holders_cons_others holder b'
  accounts := by
    rw [Desk.update, out, List.map_cons, hid]
    exact h.accounts_loan hb

theorem giveBack (h : d.InOrder first taken) (hb : d.loan? holder = some b) :
    (d.giveBack holder b).InOrder first taken where
  holders := h.holders_others holder
  accounts := (h.accounts_loan hb).release

theorem acquire (h : d.InOrder first taken) (holder : String) :
    (d.acquire holder).1.InOrder first (taken ++ [d.pool.acquire.1.id]) where
  holders := h.holders_cons_others holder _
  accounts := by
    have hlent := h.accounts.acquire
    unfold Desk.acquire out
    cases hb : d.loan? holder with
    | none =>
      rw [others_of_loan?_eq_none hb]
      exact hlent
    | some older =>
      -- the older buffer goes back when the new one is out
      refine Pool.Accounts.release (hlent.perm ?_)
      have hheld : d.out.Perm (older.id :: (d.others holder).map (·.2.id)) :=
        (held_perm h.holders hb).map _
      exact (hheld.cons _).trans (.swap ..)

/-- **One action** keeps the desk in order. -/
theorem step (h : d.InOrder first taken) (holder : String) (action : Action) :
    (d.step holder action).1.InOrder first (taken ++ d.lent [(holder, action)]) := by
  cases action with
  | acquire => exact h.acquire holder
  | use u =>
    rw [show d.lent [(holder, .use u)] = [] from rfl, List.append_nil]
    cases hb : d.loan? holder with
    | none => rwa [step_use_of_none hb]
    | some b =>
      rw [step_use_of_loan hb]
      cases u with
      | push os => exact h.update hb (Buffer.id_append b os)
      | reserve n => exact h.update hb rfl
      | clear => exact h.update hb rfl
      | release => exact h.giveBack hb
      | intoRecords => exact h.giveBack hb

end InOrder

theorem lent_cons (d : Desk) (holder : String) (action : Action)
    (history : List (String × Action)) : d.lent ((holder, action) :: history) =
      d.lent [(holder, action)] ++ (d.step holder action).1.lent history := by
  cases action <;> rfl

/-- **Every history** keeps the desk in order. -/
theorem InOrder.run {first : List Buffer} {taken : List Nat} (h : d.InOrder first taken)
    (history : List (String × Action)) :
    (d.run history).InOrder first (taken ++ d.lent history) := by
  induction history generalizing d taken with
  | nil => simpa [Desk.run, lent] using h
  | cons e history ih =>
    obtain ⟨holder, action⟩ := e
    rw [lent_cons, ← List.append_assoc]
    exact ih (h.step holder action)

theorem inOrder_run (prewarm capacity : Nat) (history : List (String × Action)) :
    ((opened prewarm capacity).run history).InOrder (Pool.withCapacity prewarm capacity).free
      ((opened prewarm capacity).lent history) := by
  have hopened : (opened prewarm capacity).InOrder (Pool.withCapacity prewarm capacity).free [] :=
    ⟨List.nodup_nil, Pool.accounts_withCapacity prewarm capacity⟩
  exact hopened.run history

/-! ### What a holder has in hand -/

/-- What a buffer with the records `os` holds after its holder has used it; nothing once it has been
returned. -/
def Use.left (os : List Occurrence) : Use → Option (List Occurrence)
  | .push more => some (os ++ more.toList)
  | .reserve _ => some os
  | .clear => some []
  | .release => none
  | .intoRecords => none

/-- What a holder has in hand after an action of his own. -/
def Action.left (inHand : Option (List Occurrence)) : Action → Option (List Occurrence)
  | .acquire => some []
  | .use u => inHand.bind u.left

/-- What a holder has in hand after a history, by his own actions alone. -/
def written (holder : String) (history : List (String × Action)) : Option (List Occurrence) :=
  history.foldl (fun inHand (name, action) => if name = holder then action.left inHand else inHand)
    none

/-- The records a holder has in hand. -/
def inHand (d : Desk) (holder : String) : Option (List Occurrence) :=
  (d.loan? holder).map (·.records.toList)

section InHand

variable {first : List Buffer} {taken : List Nat}

theorem inHand_cons_others (pool : Pool) (d : Desk) (name holder : String) (b : Buffer) :
    (Desk.mk pool ((name, b) :: d.others name)).inHand holder =
      if name = holder then some b.records.toList else d.inHand holder := by
  unfold inHand
  rw [loan?_cons_others]
  split <;> rfl

theorem inHand_giveBack (d : Desk) (name holder : String) (b : Buffer) :
    (d.giveBack name b).inHand holder = if name = holder then none else d.inHand holder := by
  unfold inHand giveBack
  rw [loan?, lookup_others]
  split <;> rfl

/-- Using a buffer changes what its holder has in hand, and nothing else. -/
theorem inHand_useLoan (d : Desk) (name holder : String) (b : Buffer) (u : Use) :
    (d.useLoan name b u).1.inHand holder =
      if name = holder then u.left b.records.toList else d.inHand holder := by
  cases u with
  | push os =>
    refine (inHand_cons_others _ d name holder _).trans ?_
    rw [Buffer.records_append, Array.toList_append]
    rfl
  | reserve n => exact inHand_cons_others _ d name holder _
  | clear => exact inHand_cons_others _ d name holder _
  | release => exact inHand_giveBack d name holder b
  | intoRecords => exact inHand_giveBack d name holder b

/-- **An action** changes what its own holder has in hand, and nothing else. -/
theorem inHand_step (h : d.InOrder first taken) (name : String) (action : Action)
    (holder : String) : (d.step name action).1.inHand holder =
      if name = holder then action.left (d.inHand holder) else d.inHand holder := by
  cases action with
  | acquire =>
    have hempty : d.pool.acquire.1.records.toList = [] := by rw [h.accounts.records_acquire]
    rw [Action.left, ← hempty]
    exact inHand_cons_others _ d name holder _
  | use u =>
    cases hb : d.loan? name with
    | none =>
      have hnone : d.inHand name = none := by rw [inHand, hb, Option.map_none]
      rw [step_use_of_none hb]
      split
      · rename_i heq
        rw [← heq, hnone]
        rfl
      · rfl
    | some b =>
      have hsome : d.inHand name = some b.records.toList := by rw [inHand, hb, Option.map_some]
      rw [step_use_of_loan hb, inHand_useLoan]
      split
      · rename_i heq
        rw [← heq, hsome]
        rfl
      · rfl

/-- **What a holder has in hand after a history** is what he has written. -/
theorem inHand_run (prewarm capacity : Nat) (history : List (String × Action)) (holder : String) :
    ((opened prewarm capacity).run history).inHand holder = written holder history := by
  induction history using List.reverseRecOn with
  | nil => rfl
  | append_singleton history e ih =>
    obtain ⟨name, action⟩ := e
    have h := inOrder_run prewarm capacity history
    rw [written, run, List.foldl_append, List.foldl_append, ← written, ← run]
    exact (inHand_step h name action holder).trans (by rw [ih]; rfl)

end InHand

/-! ### Returning a buffer -/

theorem id_of_loan?_useLoan {u : Use} {b' : Buffer}
    (h : (d.useLoan holder b u).1.loan? holder = some b') : b'.id = b.id := by
  cases u with
  | push os =>
    obtain rfl : b.append os = b' := by simpa [useLoan, update, loan?_cons_others] using h
    exact Buffer.id_append b os
  | reserve n =>
    obtain rfl : b.reserve n = b' := by simpa [useLoan, update, loan?_cons_others] using h
    rfl
  | clear =>
    obtain rfl : b.clear = b' := by simpa [useLoan, update, loan?_cons_others] using h
    rfl
  | release => simp [useLoan, giveBack, loan?, lookup_others] at h
  | intoRecords => simp [useLoan, giveBack, loan?, lookup_others] at h

/-- **Along every history of a pool**, whoever acts and in whatever order:

* the free buffers are empty, and so is every buffer that is lent;
* the counters agree, modulo 2^64, with the number of free buffers and of loans;
* no buffer is in two places, be it free or in a hand, and using it does not make it another one;
* a free buffer is small, or one of the first that has never been lent;
* a holder has in hand what he has written, and copying the records out gives exactly these and
  returns the buffer as a plain return does. -/
theorem accounts_run (prewarm capacity : Nat) (history : List (String × Action)) :
    let start := opened prewarm capacity
    let d := start.run history
    (∀ b ∈ d.pool.free, b.len = 0) ∧
    (∀ holder, (d.step holder .acquire).2 = .len 0 ∧
      (d.step holder .acquire).1.inHand holder = some []) ∧
    .ofNat d.pool.available + d.pool.stats.hits = .ofNat prewarm + d.pool.stats.released ∧
    d.pool.stats.hits + d.pool.stats.misses =
      d.pool.stats.released + d.pool.stats.discarded + .ofNat d.held.length ∧
    (d.held.map (·.2.id) ++ d.pool.free.map (·.id)).Nodup ∧
    (∀ b ∈ d.pool.free, b.capacity ≤ 65536 ∨
      b ∈ start.pool.free ∧ b.id ∉ start.lent history) ∧
    ∀ holder b, d.loan? holder = some b →
      written holder history = some b.records.toList ∧
      (d.step holder (.use .intoRecords)).2 = .records b.records ∧
      (d.step holder (.use .intoRecords)).1 = (d.step holder (.use .release)).1 ∧
      ∀ u b', (d.step holder (.use u)).1.loan? holder = some b' → b'.id = b.id := by
  intro start d
  have h := inOrder_run prewarm capacity history
  have hempty := h.accounts.records_acquire
  refine ⟨h.accounts.cleared, fun holder => ⟨?_, ?_⟩, ?_, ?_, h.accounts.nodup, h.accounts.kept,
    fun holder b hb => ⟨?_, ?_, ?_, fun u b' hb' => ?_⟩⟩
  · exact congrArg Outcome.len (congrArg Array.size hempty)
  · rw [inHand_step h, if_pos rfl]
    rfl
  · simpa [Pool.withCapacity] using h.accounts.available
  · simpa [out] using h.accounts.loans
  · rw [← inHand_run prewarm capacity, inHand, hb, Option.map_some]
  · rw [step_use_of_loan hb]
    rfl
  · rw [step_use_of_loan hb, step_use_of_loan hb]
    rfl
  · rw [step_use_of_loan hb] at hb'
    exact id_of_loan?_useLoan hb'

/-- Two holders of a pool with one buffer: the second gets a new one, grows it beyond what is kept,
and copies out what he wrote. -/
theorem accounts_run_twoHolders :
    let d := (opened 1 4).run [("a", .acquire), ("b", .acquire), ("b", .use (.push #[⟨5, 1, 0⟩])),
      ("a", .use .release), ("b", .use (.reserve 70000))]
    d.loan? "b" = some ⟨1, 70001, #[⟨5, 1, 0⟩]⟩ ∧
      (d.step "b" (.use .intoRecords)).2 = .records #[⟨5, 1, 0⟩] :=
  have hloan : _ = some (⟨1, 70001, #[⟨5, 1, 0⟩]⟩ : Buffer) := by decide +kernel
  ⟨hloan, ((accounts_run 1 4 _).2.2.2.2.2.2 "b" _ hloan).2.1⟩

end Desk

end PatternScan
