import PatternScan.Proofs.Container.RoundTrip

/-!
# Where a walk stops

A callback has a state of its own and says after every event whether the walk goes on, so that the
same event can be met with different answers. `recorded` lets a callback write down its calls and
changes nothing else; `calls` are the calls of a walk, written down in this way. `calls_walk` says
that these are the events of the text up to the first one to which the callback answers `false`, in
the state that it has then, and all of them if there is none.

The walk has two exits, behind the pattern of a state and inside a chain. Neither is spoken of here:
`walk_eq_feed` has turned both into the end of one list, and what is left is an induction on it.
-/

namespace PatternScan.Automaton

variable {σ : Type}

section Callback

variable (f : σ → Event → σ × Bool)

/-- A callback that writes down its calls. -/
def recorded (x : σ × List Event) (e : Event) : (σ × List Event) × Bool :=
  (((f x.1 e).1, x.2 ++ [e]), (f x.1 e).2)

/-- The calls of a walk. -/
def calls (a : Automaton) (text : ByteArray) (x : σ) : List Event :=
  (a.walk (recorded f) text (x, [])).2

/-- The state of a callback after it has been called on some events, whatever it has answered. -/
def stateAfter (x : σ) (es : List Event) : σ :=
  es.foldl (fun x e => (f x e).1) x

/-- What a callback answers to the event at place `i`, in the state that the events before leave. -/
def answer? (x : σ) (es : List Event) (i : Nat) : Option Bool :=
  es[i]?.map fun e => (f (stateAfter f x (es.take i)) e).2

theorem answer?_cons_zero (x : σ) (e : Event) (es : List Event) :
    answer? f x (e :: es) 0 = some (f x e).2 := rfl

theorem answer?_cons_succ (x : σ) (e : Event) (es : List Event) (i : Nat) :
    answer? f x (e :: es) (i + 1) = answer? f (f x e).1 es i := rfl

theorem feed_recorded (x : σ) (met es : List Event) :
    feed (recorded f) (x, met) es = (((feed f x es).1, met ++ fed f x es), (feed f x es).2) := by
  induction es generalizing x met with
  | nil => simp [feed, fed]
  | cons e es ih =>
    have hcall : recorded f (x, met) e = (((f x e).1, met ++ [e]), (f x e).2) := rfl
    rw [feed, feed, fed, hcall]
    rcases f x e with ⟨y, _ | _⟩
    · rfl
    · simp only
      rw [ih, List.append_assoc, List.singleton_append]

theorem feed_fst (x : σ) (es : List Event) : (feed f x es).1 = stateAfter f x (fed f x es) := by
  induction es generalizing x with
  | nil => rfl
  | cons e es ih =>
    unfold feed fed
    rcases hf : f x e with ⟨y, _ | _⟩
    · simp [stateAfter, hf]
    · simp only [ih, stateAfter, List.foldl_cons, hf]

/-- The first `false` ends the calls. -/
theorem fed_eq_take {x : σ} {es : List Event} {i : Nat} (hi : answer? f x es i = some false)
    (hbefore : ∀ j < i, answer? f x es j ≠ some false) : fed f x es = es.take (i + 1) := by
  induction es generalizing x i with
  | nil => exact nomatch hi
  | cons e es ih =>
    unfold fed
    cases i with
    | zero =>
      rw [answer?_cons_zero] at hi
      rcases hf : f x e with ⟨y, more⟩
      rw [hf] at hi
      obtain rfl : more = false := Option.some.inj hi
      rfl
    | succ i =>
      have hfirst := hbefore 0 (Nat.succ_pos i)
      rw [answer?_cons_zero] at hfirst
      rw [answer?_cons_succ] at hi
      rcases hf : f x e with ⟨y, _ | _⟩
      · exact absurd (congrArg (some ·.2) hf) hfirst
      · rw [hf] at hi
        simp only
        rw [List.take_succ_cons, ih hi fun j hj => ?_]
        have := hbefore (j + 1) (Nat.succ_lt_succ hj)
        rwa [answer?_cons_succ, hf] at this

theorem fed_eq_self {x : σ} {es : List Event} (h : ∀ i, answer? f x es i ≠ some false) :
    fed f x es = es := by
  induction es generalizing x with
  | nil => rfl
  | cons e es ih =>
    have hfirst := h 0
    rw [answer?_cons_zero] at hfirst
    unfold fed
    rcases hf : f x e with ⟨y, _ | _⟩
    · exact absurd (congrArg (some ·.2) hf) hfirst
    · simp only
      rw [ih fun i => ?_]
      have := h (i + 1)
      rwa [answer?_cons_succ, hf] at this

theorem walk_recorded (a : Automaton) (text : ByteArray) (x : σ) :
    a.walk (recorded f) text (x, []) = (a.walk f text x, fed f x (a.trace text)) := by
  rw [walk_eq_feed, feed_recorded, walk_eq_feed, List.nil_append]

theorem calls_eq_fed (a : Automaton) (text : ByteArray) (x : σ) :
    a.calls f text x = fed f x (a.trace text) := by
  rw [calls, walk_recorded]

end Callback

/-- A callback that stops when `limit` events are there has room for at least one more. -/
theorem feed_limit (limit : Nat) (met : Array Event) (es : List Event) :
    (feed (fun met e => (met.push e, decide ((met.push e).size < limit))) met es).1.toList =
      met.toList ++ es.take (max 1 (limit - met.size)) := by
  induction es generalizing met with
  | nil => simp [feed]
  | cons e es ih =>
    unfold feed
    by_cases hmore : (met.push e).size < limit
    · simp only [hmore, decide_true]
      rw [Array.size_push] at hmore
      rw [ih, Array.size_push, Array.toList_push,
        show max 1 (limit - met.size) = max 1 (limit - (met.size + 1)) + 1 by omega,
        List.take_succ_cons, List.append_assoc, List.singleton_append]
    · simp only [hmore, decide_false]
      rw [Array.size_push] at hmore
      rw [Array.toList_push, show max 1 (limit - met.size) = 0 + 1 by omega, List.take_succ_cons,
        List.take_zero]

theorem toList_eventsUpTo (a : Automaton) (limit : Nat) (text : ByteArray) :
    (a.eventsUpTo limit text).toList = (a.trace text).take (max 1 limit) := by
  unfold eventsUpTo
  rw [walk_eq_feed, feed_limit]
  simp

/-- **A walk calls its callback up to the first `false`.** Whatever the table, the text and the
callback with its state are:

* writing down the calls changes nothing, and the walk ends in the state that the calls lead to;
* the calls are the events of the text up to the first that is answered `false` in the state that
  the callback has then, be it the pattern of a state or one on its chain, and none after it;
* without such an event they are all events of the text;
* a callback that stops when `limit` events are there gets the first of them, and never none;
* in a table that was built or decoded they are the events of a run in which every read succeeds
  and no chain is cut off, and the walk has no other run. -/
theorem calls_walk (a : Automaton) (f : σ → Event → σ × Bool) (text : ByteArray) (x : σ) :
    let all := (a.events text).toList
    let calls := a.calls f text x
    a.walk (recorded f) text (x, []) = (a.walk f text x, calls) ∧
    a.walk f text x = stateAfter f x calls ∧
    (∀ i, answer? f x all i = some false → (∀ j < i, answer? f x all j ≠ some false) →
      calls = all.take (i + 1)) ∧
    ((∀ i, answer? f x all i ≠ some false) → calls = all) ∧
    (∀ limit, (a.eventsUpTo limit text).toList = all.take (max 1 limit)) ∧
    (StateId.root < a.size → a.Sound →
      a.Run (fun x e => some (f x e)) text x calls (a.walk f text x) ∧
        ∀ es y, a.Run (fun x e => some (f x e)) text x es y →
          es = calls ∧ y = a.walk f text x) := by
  intro all calls
  have hcalls : calls = fed f x all := by
    rw [show all = a.trace text from toList_events a text]
    exact calls_eq_fed f a text x
  refine ⟨?_, ?_, fun i hi hbefore => ?_, fun hall => ?_, fun limit => ?_, fun hsize hsound => ?_⟩
  · rw [walk_recorded, ← calls_eq_fed]
  · rw [walk_eq_feed, feed_fst, ← calls_eq_fed]
  · rw [hcalls, fed_eq_take f hi hbefore]
  · rw [hcalls, fed_eq_self f hall]
  · rw [toList_eventsUpTo, ← toList_events]
  · have hrun : a.Run (fun x e => some (f x e)) text x calls (a.walk f text x) := by
      rw [show calls = fed f x (a.trace text) from calls_eq_fed f a text x]
      exact hsound.run hsize (fun _ _ _ => rfl) x
    exact ⟨hrun, fun es y h => h.unique hrun⟩

/-- Three patterns end at one byte; a callback that counts stops at the second, inside the chain. -/
theorem calls_walk_insideChain :
    let a := Builder.automatonOf [[99], [98, 99], [97, 98, 99]]
    let f := fun (n : Nat) (_ : Event) => (n + 1, decide (n + 1 < 2))
    a.calls f ⟨#[97, 98, 99]⟩ 0 = [⟨2, 3, 2⟩, ⟨2, 2, 1⟩] ∧
      a.Run (fun n e => some (f n e)) ⟨#[97, 98, 99]⟩ 0 [⟨2, 3, 2⟩, ⟨2, 2, 1⟩]
        (a.walk f ⟨#[97, 98, 99]⟩ 0) := by
  intro a f
  obtain ⟨-, -, hfirst, -, -, hrun⟩ := calls_walk a f ⟨#[97, 98, 99]⟩ 0
  rw [toList_events] at hfirst
  have hcalls : a.calls f ⟨#[97, 98, 99]⟩ 0 = [⟨2, 3, 2⟩, ⟨2, 2, 1⟩] :=
    (hfirst 1 (by decide +kernel) (by decide +kernel)).trans (by decide +kernel)
  have hsound : a.Sound :=
    Container.sound_build (Builder.collects_addAll _) (Builder.not_nil_mem_numbered _)
  exact ⟨hcalls, hcalls ▸ (hrun (by decide +kernel) hsound).1⟩

end PatternScan.Automaton
