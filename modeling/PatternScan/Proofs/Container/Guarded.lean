import PatternScan.Container.Defect

/-!
# Computations that may leave their arrays

A guarded computation gets at arrays and words only through operations that can go wrong: a place
outside an array, a slice that reaches beyond it and a number that takes more than 64 bits have no
result at all. That a container cannot be read is a result like any other. The states which a search
takes from its queue are written down on the way.

`Gives x r taken` says that nothing goes wrong in `x`, that its result is `r`, and which states it
takes. `Tracks R x r` says that `x` comes to the same as a computation `r` without guards, and takes
no states; `Tracks.bind` lets a guarded computation be compared with a plain one step by step.
-/

namespace PatternScan.Container

/-- Computations on arrays and words that can go wrong. -/
abbrev Guarded := ExceptT Failure (StateT (List StateId) Option)

namespace Guarded

variable {α β γ δ : Type}

/-- Something has gone wrong. -/
def wrong : Guarded α :=
  ExceptT.mk fun _ => none

/-- The element at a place. -/
def access (xs : Array α) (i : Nat) : Guarded α :=
  if h : i < xs.size then pure xs[i] else wrong

/-- Puts an element at a place. -/
def store (xs : Array α) (i : Nat) (x : α) : Guarded (Array α) :=
  if i < xs.size then pure (xs.setIfInBounds i x) else wrong

/-- The elements from the place `i` to before the place `j`. -/
def slice (xs : Array α) (i j : Nat) : Guarded (Array α) :=
  if i ≤ j ∧ j ≤ xs.size then pure (xs.extract i j) else wrong

/-- A number that has to fit into a word. -/
def word (n : Nat) : Guarded Nat :=
  if n < UInt64.size then pure n else wrong

/-- Writes down that a state has been taken from the queue. -/
def take (s : StateId) : Guarded Unit :=
  ExceptT.mk fun taken => some (.ok (), taken ++ [s])

/-! ## What a computation gives -/

/-- Nothing goes wrong, the result is `r`, and the states `taken` are taken. -/
def Gives (x : Guarded α) (r : Except Failure α) (taken : List StateId) : Prop :=
  ∀ before, x.run.run before = some (r, before ++ taken)

theorem gives_pure (a : α) : Gives (pure a) (.ok a) [] := fun before => by
  rw [List.append_nil]
  rfl

theorem gives_throw (e : Failure) : Gives (throw e : Guarded α) (.error e) [] := fun before => by
  rw [List.append_nil]
  rfl

theorem gives_take (s : StateId) : Gives (take s) (.ok ()) [s] := fun _ => rfl

theorem gives_access {xs : Array α} {i : Nat} (h : i < xs.size) :
    Gives (access xs i) (.ok xs[i]) [] := by
  rw [access, dif_pos h]
  exact gives_pure _

theorem gives_store {xs : Array α} {i : Nat} (h : i < xs.size) (x : α) :
    Gives (store xs i x) (.ok (xs.setIfInBounds i x)) [] := by
  rw [store, if_pos h]
  exact gives_pure _

theorem gives_slice {xs : Array α} {i j : Nat} (hij : i ≤ j) (hj : j ≤ xs.size) :
    Gives (slice xs i j) (.ok (xs.extract i j)) [] := by
  rw [slice, if_pos ⟨hij, hj⟩]
  exact gives_pure _

theorem gives_word {n : Nat} (h : n < UInt64.size) : Gives (word n) (.ok n) [] := by
  rw [word, if_pos h]
  exact gives_pure _

section Bind

variable {x : Guarded α} {f : α → Guarded β} {taken taken' : List StateId}

theorem Gives.bind {a : α} {r : Except Failure β} (hx : Gives x (.ok a) taken)
    (hf : Gives (f a) r taken') : Gives (x >>= f) r (taken ++ taken') := fun before => by
  rw [ExceptT.run_bind, StateT.run_bind, hx before, ← List.append_assoc, ← hf]
  rfl

theorem Gives.bind_error {e : Failure} (hx : Gives x (.error e) taken) :
    Gives (x >>= f) (.error e) taken := fun before => by
  rw [ExceptT.run_bind, StateT.run_bind, hx before]
  rfl

/-- A step that takes no states. -/
theorem Gives.bind_nil {a : α} {r : Except Failure β} (hx : Gives x (.ok a) [])
    (hf : Gives (f a) r taken) : Gives (x >>= f) r taken :=
  hx.bind hf

/-- The steps behind it take no states. -/
theorem Gives.bind_last {a : α} {r : Except Failure β} (hx : Gives x (.ok a) taken)
    (hf : Gives (f a) r []) : Gives (x >>= f) r taken := by
  have := hx.bind hf
  rwa [List.append_nil] at this

end Bind

/-! ## Guarded and plain computations -/

/-- Nothing goes wrong and no state is taken; the results are both errors, and the same one, or
related by `R`. -/
def Tracks (R : α → β → Prop) (x : Guarded α) (r : Except Failure β) : Prop :=
  match r with
  | .error e => Gives x (.error e) []
  | .ok b => ∃ a, Gives x (.ok a) [] ∧ R a b

theorem tracks_pure {R : α → β → Prop} {a : α} {b : β} (h : R a b) : Tracks R (pure a) (.ok b) :=
  ⟨a, gives_pure a, h⟩

theorem tracks_throw {R : α → β → Prop} (e : Failure) :
    Tracks R (throw e : Guarded α) (.error e) :=
  gives_throw e

theorem Tracks.bind_left {S : γ → δ → Prop} {x : Guarded α} {a : α} {f : α → Guarded γ}
    {r : Except Failure δ} (hx : Gives x (.ok a) []) (hf : Tracks S (f a) r) :
    Tracks S (x >>= f) r := by
  cases r with
  | error e => exact hx.bind_nil hf
  | ok d =>
    obtain ⟨c, hc, hcd⟩ := hf
    exact ⟨c, hx.bind_nil hc, hcd⟩

theorem Tracks.bind {R : α → β → Prop} {S : γ → δ → Prop} {x : Guarded α} {r : Except Failure β}
    {f : α → Guarded γ} {g : β → Except Failure δ} (hx : Tracks R x r)
    (hf : ∀ a b, R a b → Tracks S (f a) (g b)) : Tracks S (x >>= f) (r >>= g) := by
  cases r with
  | error e => exact Gives.bind_error hx
  | ok b =>
    obtain ⟨a, ha, hab⟩ := hx
    exact Tracks.bind_left ha (hf a b hab)

theorem Tracks.mono {R S : α → β → Prop} {x : Guarded α} {r : Except Failure β}
    (hx : Tracks R x r) (h : ∀ a b, R a b → S a b) : Tracks S x r := by
  cases r with
  | error e => exact hx
  | ok b =>
    obtain ⟨a, ha, hab⟩ := hx
    exact ⟨a, ha, h a b hab⟩

/-- Both turn down the same, and go on in the same way if they do not. -/
theorem Tracks.ite_throw {R : γ → δ → Prop} {c : Prop} [Decidable c] {e : Failure}
    {f : α → Guarded γ} {g : β → Except Failure δ} {x : Guarded γ} {r : Except Failure δ}
    (h : ¬c → Tracks R x r) :
    Tracks R (if c then throw e >>= f else x) (if c then throw e >>= g else r) := by
  split
  · exact (gives_throw e).bind_error
  · rename_i hc
    exact h hc

end Guarded

end PatternScan.Container
