import PatternScan.Proofs.Automaton.Trace

/-!
# Runs of a walk in which every step succeeds

`Automaton.Run` is a walk as a derivation. Every rule that reads a cell asks for one that is in the
table, every call of the callback has to give an answer, and a chain is followed to its end, however
long it is. So a derivation says that the walk comes to an end and that all its reads and calls
succeed, and it records the events that were reported. `run_walk` finds the derivation of a walk:
the states that texts lead to have to be in the table, and so do the chains they link to. A walk has
no other derivation (`Run.unique`), so that its events are all that were reported.
-/

namespace PatternScan.Automaton

variable {σ : Type}

/-! ## Derivations -/

section Run

variable (a : Automaton) (f : σ → Event → Option (σ × Bool))

/-- Reporting the chain that starts with a state: the events, the callback's state, its answer. -/
inductive ChainRun (last : Nat) : StateId → σ → List Event → σ × Bool → Prop
  | done (x : σ) : ChainRun last StateId.sentinel x [] (x, true)
  | stop {u : StateId} {cell : Cell} {x y : σ} (hne : u ≠ StateId.sentinel)
      (hcell : a.cells[u]? = some cell)
      (hf : f x ⟨last, cell.len, cell.pattern⟩ = some (y, false)) :
      ChainRun last u x [⟨last, cell.len, cell.pattern⟩] (y, false)
  | next {u : StateId} {cell : Cell} {x y : σ} {es : List Event} {r : σ × Bool}
      (hne : u ≠ StateId.sentinel) (hcell : a.cells[u]? = some cell)
      (hf : f x ⟨last, cell.len, cell.pattern⟩ = some (y, true))
      (h : ChainRun last cell.link y es r) :
      ChainRun last u x (⟨last, cell.len, cell.pattern⟩ :: es) r

/-- Reporting what ends in the state of a cell. -/
inductive ReportRun (last : Nat) (cell : Cell) : σ → List Event → σ × Bool → Prop
  | chain {x : σ} {es : List Event} {r : σ × Bool} (hlen : cell.len = 0)
      (h : a.ChainRun f last cell.link x es r) : ReportRun last cell x es r
  | stop {x y : σ} (hlen : cell.len ≠ 0)
      (hf : f x ⟨last, cell.len, cell.pattern⟩ = some (y, false)) :
      ReportRun last cell x [⟨last, cell.len, cell.pattern⟩] (y, false)
  | next {x y : σ} {es : List Event} {r : σ × Bool} (hlen : cell.len ≠ 0)
      (hf : f x ⟨last, cell.len, cell.pattern⟩ = some (y, true))
      (h : a.ChainRun f last cell.link y es r) :
      ReportRun last cell x (⟨last, cell.len, cell.pattern⟩ :: es) r

/-- The walk from an offset and a state on: the events and the callback's last state. -/
inductive RunFrom (text : ByteArray) : Nat → StateId → σ → List Event → σ → Prop
  | done {i : Nat} (s : StateId) (x : σ) (hi : text.size ≤ i) : RunFrom text i s x [] x
  | stop {i : Nat} {s : StateId} {cell cell' : Cell} {x y : σ} {es : List Event}
      (hi : i < text.size) (hcell : a.cells[s]? = some cell)
      (hcell' : a.cells[cell.step text[i]]? = some cell')
      (h : a.ReportRun f i cell' x es (y, false)) : RunFrom text i s x es y
  | next {i : Nat} {s : StateId} {cell cell' : Cell} {x y z : σ} {es es' : List Event}
      (hi : i < text.size) (hcell : a.cells[s]? = some cell)
      (hcell' : a.cells[cell.step text[i]]? = some cell')
      (h : a.ReportRun f i cell' x es (y, true))
      (h' : RunFrom text (i + 1) (cell.step text[i]) y es' z) : RunFrom text i s x (es ++ es') z

/-- The walk over `text` with the callback `f` from its state `x` on ends in the state `y`, and `es`
are the events that it reports. -/
def Run (text : ByteArray) (x : σ) (es : List Event) (y : σ) : Prop :=
  a.RunFrom f text 0 StateId.root x es y

end Run

/-! ## Runs are determined -/

section Unique

variable {a : Automaton} {f : σ → Event → Option (σ × Bool)} {last : Nat} {x : σ}
  {es es' : List Event} {r r' : σ × Bool}

theorem ChainRun.unique {u : StateId} (h : a.ChainRun f last u x es r)
    (h' : a.ChainRun f last u x es' r') : es = es' ∧ r = r' := by
  induction h generalizing es' with
  | done => cases h' with
    | done => exact ⟨rfl, rfl⟩
    | stop hne => exact absurd rfl hne
    | next hne => exact absurd rfl hne
  | stop hne hcell hf => cases h' with
    | done => exact absurd rfl hne
    | stop _ hcell' hf' =>
      obtain rfl := Option.some.inj (hcell.symm.trans hcell')
      obtain ⟨⟩ := hf.symm.trans hf'
      exact ⟨rfl, rfl⟩
    | next _ hcell' hf' =>
      obtain rfl := Option.some.inj (hcell.symm.trans hcell')
      exact nomatch hf.symm.trans hf'
  | next hne hcell hf _ ih => cases h' with
    | done => exact absurd rfl hne
    | stop _ hcell' hf' =>
      obtain rfl := Option.some.inj (hcell.symm.trans hcell')
      exact nomatch hf.symm.trans hf'
    | next _ hcell' hf' h' =>
      obtain rfl := Option.some.inj (hcell.symm.trans hcell')
      obtain ⟨⟩ := hf.symm.trans hf'
      obtain ⟨rfl, rfl⟩ := ih h'
      exact ⟨rfl, rfl⟩

theorem ReportRun.unique {cell : Cell} (h : a.ReportRun f last cell x es r)
    (h' : a.ReportRun f last cell x es' r') : es = es' ∧ r = r' := by
  cases h with
  | chain hlen h => cases h' with
    | chain _ h' => exact h.unique h'
    | stop hlen' => exact absurd hlen hlen'
    | next hlen' => exact absurd hlen hlen'
  | stop hlen hf => cases h' with
    | chain hlen' => exact absurd hlen' hlen
    | stop _ hf' =>
      obtain ⟨⟩ := hf.symm.trans hf'
      exact ⟨rfl, rfl⟩
    | next _ hf' => exact nomatch hf.symm.trans hf'
  | next hlen hf h => cases h' with
    | chain hlen' => exact absurd hlen' hlen
    | stop _ hf' => exact nomatch hf.symm.trans hf'
    | next _ hf' h' =>
      obtain ⟨⟩ := hf.symm.trans hf'
      obtain ⟨rfl, rfl⟩ := h.unique h'
      exact ⟨rfl, rfl⟩

theorem RunFrom.unique {text : ByteArray} {i : Nat} {s : StateId} {y y' : σ}
    (h : a.RunFrom f text i s x es y) (h' : a.RunFrom f text i s x es' y') :
    es = es' ∧ y = y' := by
  induction h generalizing es' with
  | done _ _ hi => cases h' with
    | done => exact ⟨rfl, rfl⟩
    | stop hi' => exact absurd hi' (Nat.not_lt.2 hi)
    | next hi' => exact absurd hi' (Nat.not_lt.2 hi)
  | stop hi hcell hcell₁ h => cases h' with
    | done _ _ hi' => exact absurd hi (Nat.not_lt.2 hi')
    | stop _ hcell' hcell₁' h' =>
      obtain rfl := Option.some.inj (hcell.symm.trans hcell')
      obtain rfl := Option.some.inj (hcell₁.symm.trans hcell₁')
      obtain ⟨rfl, ⟨⟩⟩ := h.unique h'
      exact ⟨rfl, rfl⟩
    | next _ hcell' hcell₁' h' =>
      obtain rfl := Option.some.inj (hcell.symm.trans hcell')
      obtain rfl := Option.some.inj (hcell₁.symm.trans hcell₁')
      exact nomatch (h.unique h').2
  | next hi hcell hcell₁ h _ ih => cases h' with
    | done _ _ hi' => exact absurd hi (Nat.not_lt.2 hi')
    | stop _ hcell' hcell₁' h' =>
      obtain rfl := Option.some.inj (hcell.symm.trans hcell')
      obtain rfl := Option.some.inj (hcell₁.symm.trans hcell₁')
      exact nomatch (h.unique h').2
    | next _ hcell' hcell₁' h' hrest =>
      obtain rfl := Option.some.inj (hcell.symm.trans hcell')
      obtain rfl := Option.some.inj (hcell₁.symm.trans hcell₁')
      obtain ⟨rfl, ⟨⟩⟩ := h.unique h'
      obtain ⟨rfl, rfl⟩ := ih hrest
      exact ⟨rfl, rfl⟩

/-- A walk has one run at most. -/
theorem Run.unique {text : ByteArray} {y y' : σ} (h : a.Run f text x es y)
    (h' : a.Run f text x es' y') : es = es' ∧ y = y' :=
  RunFrom.unique h h'

end Unique

/-! ## The run of a walk -/

section Fed

variable (f : σ → Event → σ × Bool)

/-- The events with which a callback is called when it is fed. -/
def fed : σ → List Event → List Event
  | _, [] => []
  | x, e :: es =>
    match f x e with
    | (y, true) => e :: fed y es
    | (_, false) => [e]

theorem fed_append (x : σ) (es es' : List Event) : fed f x (es ++ es') =
    match feed f x es with
    | (y, true) => es ++ fed f y es'
    | (_, false) => fed f x es := by
  induction es generalizing x with
  | nil => rfl
  | cons e es ih =>
    rw [List.cons_append, fed, feed, fed]
    rcases f x e with ⟨y, _ | _⟩
    · rfl
    · simp only [ih]
      rcases feed f y es with ⟨z, _ | _⟩ <;> rfl

/-- The callback is called on a first part of the events, and on all of them if it never stops. -/
theorem fed_eq (x : σ) (es : List Event) :
    fed f x es <+: es ∧ ((feed f x es).2 = true → fed f x es = es) := by
  induction es generalizing x with
  | nil => exact ⟨List.nil_prefix, fun _ => rfl⟩
  | cons e es ih =>
    unfold fed feed
    rcases f x e with ⟨y, _ | _⟩
    · exact ⟨⟨es, rfl⟩, fun h => absurd h Bool.false_ne_true⟩
    · obtain ⟨hfirst, hall⟩ := ih y
      exact ⟨List.cons_prefix_cons.2 ⟨rfl, hfirst⟩, fun h => congrArg (e :: ·) (hall h)⟩

end Fed

section Find

variable {a : Automaton} {g : σ → Event → Option (σ × Bool)} {f : σ → Event → σ × Bool}

theorem getElem?_cells {s : StateId} (h : s < a.size) : a.cells[s]? = some (a.cell s) := by
  rw [cell_of_lt h]
  exact Array.getElem?_eq_getElem h

theorem Chain.run {last : Nat} {u : StateId} {us : List StateId} (h : a.Chain u us)
    (hg : ∀ x, ∀ e ∈ us.map (a.eventAt last), g x e = some (f x e)) (x : σ) :
    a.ChainRun g last u x (fed f x (us.map (a.eventAt last)))
      (feed f x (us.map (a.eventAt last))) := by
  induction h generalizing x with
  | nil => exact .done x
  | cons hne hlt h ih =>
    rw [List.map_cons] at hg ⊢
    have hcall := hg x _ List.mem_cons_self
    unfold fed feed
    rcases hf : f x (a.eventAt last _) with ⟨y, _ | _⟩
    · exact .stop hne (getElem?_cells hlt) (hcall.trans (congrArg some hf))
    · exact .next hne (getElem?_cells hlt) (hcall.trans (congrArg some hf))
        (ih (fun x e he => hg x e (List.mem_cons_of_mem _ he)) y)

/-- The chain that a state links to ends inside the table, and the bound does not cut it off. -/
def Linking (a : Automaton) (s : StateId) : Prop :=
  ∃ us, a.Chain (a.cell s).link us ∧ us.length ≤ a.size

theorem Linking.run {last : Nat} {s : StateId} (h : a.Linking s)
    (hg : ∀ x, ∀ e ∈ (a.reported s).map (a.eventAt last), g x e = some (f x e)) (x : σ) :
    a.ReportRun g last (a.cell s) x (fed f x ((a.reported s).map (a.eventAt last)))
      (feed f x ((a.reported s).map (a.eventAt last))) := by
  obtain ⟨us, hus, hlength⟩ := h
  unfold reported at hg ⊢
  rw [hus.chain_eq hlength] at hg ⊢
  by_cases hlen : (a.cell s).len = 0
  · rw [if_pos hlen] at hg ⊢
    exact .chain hlen (hus.run hg x)
  · rw [if_neg hlen, List.singleton_append, List.map_cons] at hg ⊢
    have hcall := hg x _ List.mem_cons_self
    unfold fed feed
    rcases hf : f x (a.eventAt last s) with ⟨y, _ | _⟩
    · exact .stop hlen (hcall.trans (congrArg some hf))
    · exact .next hlen (hcall.trans (congrArg some hf))
        (hus.run (fun x e he => hg x e (List.mem_cons_of_mem _ he)) y)

section Walk

variable {text : ByteArray}

theorem runFrom_walkFrom (hlt : ∀ w, a.after w < a.size) (hlink : ∀ w, a.Linking (a.after w))
    {n i : Nat} (hn : text.size - i = n)
    (hg : ∀ x, ∀ e ∈ a.eventsFrom text n i, g x e = some (f x e)) (x : σ) :
    a.RunFrom g text i (a.after (text.data.toList.take i)) x (fed f x (a.eventsFrom text n i))
      (feed f x (a.eventsFrom text n i)).1 := by
  induction n generalizing i x with
  | zero => exact .done _ x (by omega)
  | succ n ih =>
    have hi : i < text.size := by omega
    have hcell := getElem?_cells (hlt (text.data.toList.take i))
    have hcell' : a.cells[(a.cell (a.after (text.data.toList.take i))).step text[i]]? =
        some (a.cell (a.after (text.data.toList.take (i + 1)))) := by
      rw [step_after_take a hi]
      exact getElem?_cells (hlt _)
    rw [eventsFrom_succ, eventsAfter_take a hi] at hg ⊢
    have hreport := (hlink (text.data.toList.take (i + 1))).run
      (fun x e he => hg x e (List.mem_append_left _ he)) x
    obtain ⟨-, hall⟩ :=
      fed_eq f x ((a.reported (a.after (text.data.toList.take (i + 1)))).map (a.eventAt i))
    rw [fed_append, feed_append]
    rcases hfeed : feed f x _ with ⟨y, _ | _⟩
    · rw [hfeed] at hreport
      exact .stop hi hcell hcell' hreport
    · rw [hfeed] at hreport hall
      rw [hall rfl] at hreport
      refine .next hi hcell hcell' hreport ?_
      rw [step_after_take a hi]
      exact ih (by omega) (fun x e he => hg x e (List.mem_append_right _ he)) y

/-- **A walk has a run** if the states that texts lead to are in the table with their chains, and if
the callback answers on the events of the text. -/
theorem run_walk (hlt : ∀ w, a.after w < a.size) (hlink : ∀ w, a.Linking (a.after w))
    (hg : ∀ x, ∀ e ∈ a.trace text, g x e = some (f x e)) (x : σ) :
    a.Run g text x (fed f x (a.trace text)) (a.walk f text x) := by
  rw [trace_eq_eventsFrom] at hg
  rw [walk_eq_feed, trace_eq_eventsFrom]
  exact runFrom_walkFrom hlt hlink rfl hg x

end Walk

end Find

end PatternScan.Automaton
