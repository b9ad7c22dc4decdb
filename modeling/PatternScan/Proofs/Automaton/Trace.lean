import Mathlib.Data.List.Basic
import PatternScan.Automaton

/-!
# The events of a walk

`Automaton.trace` lists the events of a text without a callback: at every offset the accepting
states that are reported in the state the text leads to. `walk_eq_feed` says that a walk feeds its
callback with this list until the callback stops it, so that a statement about all walks is one
about the trace and about lists.
-/

namespace PatternScan

/-- The order of events: by their last byte, and by decreasing length at one byte. -/
def Event.Before (e e' : Event) : Prop :=
  e.last < e'.last ∨ e.last = e'.last ∧ e'.len < e.len

namespace Automaton

variable (a : Automaton)

/-! ## States and chains -/

theorem cell_of_lt {a : Automaton} {s : StateId} (h : s < a.cells.size) : a.cell s = a.cells[s] :=
  dif_pos h

/-- The state a string of bytes leads to. -/
def after (w : List UInt8) : StateId :=
  w.foldl (fun s c => (a.cell s).step c) StateId.root

@[simp] theorem after_nil : a.after [] = StateId.root := rfl

@[simp] theorem after_append_singleton (w : List UInt8) (c : UInt8) :
    a.after (w ++ [c]) = (a.cell (a.after w)).step c := by
  simp [after]

/-- The states on the chain of links that starts with `u`, at most `steps` of them. -/
def chain : Nat → StateId → List StateId
  | 0, _ => []
  | steps + 1, u => if u = StateId.sentinel then [] else u :: chain steps (a.cell u).link

/-- The states that are reported in a state: itself if a pattern ends there, then its chain. -/
def reported (s : StateId) : List StateId :=
  (if (a.cell s).len = 0 then [] else [s]) ++ a.chain a.size (a.cell s).link

/-- The event of an accepting state at an offset. -/
def eventAt (last : Nat) (s : StateId) : Event :=
  ⟨last, (a.cell s).len, (a.cell s).pattern⟩

/-- The events at the last byte of a text of which `w` is the part up to that byte. -/
def eventsAfter (w : List UInt8) : List Event :=
  (a.reported (a.after w)).map (a.eventAt (w.length - 1))

/-- The events of a text in the order in which a walk meets them. -/
def trace (text : ByteArray) : List Event :=
  (List.range text.size).flatMap fun i => a.eventsAfter (text.data.toList.take (i + 1))

/-- The events of `n` offsets of a text from the offset `i` on. -/
def eventsFrom (text : ByteArray) (n i : Nat) : List Event :=
  (List.range' i n).flatMap fun j => a.eventsAfter (text.data.toList.take (j + 1))

theorem eventsFrom_succ (text : ByteArray) (n i : Nat) : a.eventsFrom text (n + 1) i =
    a.eventsAfter (text.data.toList.take (i + 1)) ++ a.eventsFrom text n (i + 1) := by
  rw [eventsFrom, List.range'_succ, List.flatMap_cons, eventsFrom]

theorem trace_eq_eventsFrom (text : ByteArray) :
    a.trace text = a.eventsFrom text text.size 0 := by
  unfold trace
  rw [List.range_eq_range', eventsFrom]

/-- The chain of links from `u` on, to its end: all its states are in the table. -/
inductive Chain : StateId → List StateId → Prop
  | nil : Chain StateId.sentinel []
  | cons {u : StateId} {us : List StateId} (hne : u ≠ StateId.sentinel) (hlt : u < a.size)
      (h : Chain (a.cell u).link us) : Chain u (u :: us)

variable {a}

/-- A bound that is no shorter than the chain does not cut it off. -/
theorem Chain.chain_eq {u : StateId} {us : List StateId} (h : a.Chain u us) {steps : Nat}
    (hsteps : us.length ≤ steps) : a.chain steps u = us := by
  induction h generalizing steps with
  | nil => cases steps <;> simp [chain]
  | cons hne hlt h ih =>
    cases steps with
    | zero => exact absurd hsteps (Nat.not_succ_le_zero _)
    | succ steps => rw [chain, if_neg hne, ih (Nat.le_of_succ_le_succ hsteps)]

/-! ## Feeding a callback -/

section Feed

variable {σ : Type} (f : σ → Event → σ × Bool)

/-- Calls a callback on events in order until it answers `false`. -/
def feed : σ → List Event → σ × Bool
  | x, [] => (x, true)
  | x, e :: es =>
    match f x e with
    | (x, true) => feed x es
    | (x, false) => (x, false)

theorem feed_append (x : σ) (es es' : List Event) : feed f x (es ++ es') =
    match feed f x es with
    | (x, true) => feed f x es'
    | (x, false) => (x, false) := by
  induction es generalizing x with
  | nil => rfl
  | cons e es ih =>
    rw [List.cons_append, feed, feed]
    rcases f x e with ⟨y, _ | _⟩
    · rfl
    · exact ih y

/-- A callback that never stops is called on every event. -/
theorem feed_eq_foldl (g : σ → Event → σ) (x : σ) (es : List Event) :
    feed (fun x e => (g x e, true)) x es = (es.foldl g x, true) := by
  induction es generalizing x with
  | nil => rfl
  | cons e es ih => exact ih (g x e)

theorem reportChain_eq_feed (a : Automaton) (last steps : Nat) (u : StateId) (x : σ) :
    a.reportChain f last steps u x = feed f x ((a.chain steps u).map (a.eventAt last)) := by
  induction steps generalizing u x with
  | zero => rfl
  | succ steps ih =>
    unfold reportChain chain
    split
    · rfl
    · simp only [List.map_cons, feed, eventAt]
      rcases f x _ with ⟨y, _ | _⟩
      · rfl
      · exact ih _ y

theorem report_eq_feed (a : Automaton) (last : Nat) (s : StateId) (x : σ) :
    a.report f last (a.cell s) x = feed f x ((a.reported s).map (a.eventAt last)) := by
  unfold report reported
  split
  · exact reportChain_eq_feed f a last a.size _ x
  · simp only [List.singleton_append, List.map_cons, feed, eventAt]
    rcases f x _ with ⟨y, _ | _⟩
    · rfl
    · exact reportChain_eq_feed f a last a.size _ y

@[simp] theorem chain_sentinel (a : Automaton) (steps : Nat) :
    a.chain steps StateId.sentinel = [] := by
  cases steps <;> simp [chain]

theorem take_succ_toList {text : ByteArray} {i : Nat} (h : i < text.size) :
    text.data.toList.take (i + 1) = text.data.toList.take i ++ [text[i]] :=
  List.take_succ_eq_append_getElem (show i < text.data.toList.length from h)

theorem step_after_take (a : Automaton) {text : ByteArray} {i : Nat} (h : i < text.size) :
    (a.cell (a.after (text.data.toList.take i))).step text[i] =
      a.after (text.data.toList.take (i + 1)) := by
  rw [take_succ_toList h, after_append_singleton]

theorem eventsAfter_take (a : Automaton) {text : ByteArray} {i : Nat} (h : i < text.size) :
    a.eventsAfter (text.data.toList.take (i + 1)) =
      (a.reported (a.after (text.data.toList.take (i + 1)))).map (a.eventAt i) := by
  have hlen : (text.data.toList.take (i + 1)).length = i + 1 :=
    List.length_take_of_le (show i + 1 ≤ text.data.toList.length from h)
  unfold eventsAfter
  rw [hlen, Nat.add_sub_cancel]

/-- The walk from an offset on feeds the events of the later offsets. -/
theorem walkFrom_eq_feed (a : Automaton) (text : ByteArray) (n i : Nat) (hn : text.size - i = n)
    (x : σ) : a.walkFrom f text i (a.after (text.data.toList.take i)) x =
      (feed f x (a.eventsFrom text n i)).1 := by
  induction n generalizing i x with
  | zero =>
    unfold walkFrom
    rw [dif_neg (by omega)]
    rfl
  | succ n ih =>
    have hi : i < text.size := by omega
    rw [walkFrom, dif_pos hi, step_after_take a hi, eventsFrom_succ, feed_append,
      eventsAfter_take a hi, ← report_eq_feed]
    simp only
    split
    · -- nothing is reported here
      rename_i h
      simp only [Bool.and_eq_true, decide_eq_true_eq] at h
      rw [ih (i + 1) (by omega), report_eq_feed, reported, if_pos h.1, h.2, chain_sentinel]
      rfl
    · rcases a.report f i _ x with ⟨y, _ | _⟩
      · rfl
      · exact ih (i + 1) (by omega) y

/-- **A walk feeds its callback with the trace**, up to the event at which the callback stops. -/
theorem walk_eq_feed (a : Automaton) (text : ByteArray) (x : σ) :
    a.walk f text x = (feed f x (a.trace text)).1 := by
  unfold walk
  rw [trace_eq_eventsFrom]
  exact walkFrom_eq_feed f a text text.size 0 rfl x

end Feed

/-- A callback that never stops gets the whole trace. -/
theorem walk_eq_foldl {σ : Type} (a : Automaton) (g : σ → Event → σ) (text : ByteArray) (x : σ) :
    a.walk (fun x e => (g x e, true)) text x = (a.trace text).foldl g x := by
  rw [walk_eq_feed, feed_eq_foldl]

theorem toList_events (a : Automaton) (text : ByteArray) :
    (a.events text).toList = a.trace text := by
  unfold events
  rw [walk_eq_foldl]
  simp

theorem toList_findAll (a : Automaton) (text : ByteArray) :
    (a.findAll text).toList = (a.trace text).map Event.occurrence := by
  unfold findAll
  rw [walk_eq_foldl]
  simp

end Automaton

end PatternScan
