import Mathlib.Data.List.TakeWhile
import PatternScan.Proofs.Json.Literals

/-!
# Values read back

`Spells v cs` says that the text `cs` spells the value `v`: parts follow each other with any blanks
between them, a natural number is written in its digits, and a string between quotes with its
characters escaped. A reader takes such a text for the value (`parse?_of_spells`). Both ways of
writing spell the values that `Plain` describes, in which every string stands for a text
(`Plain.spells_compact`, `Plain.spells_pretty`).
-/

namespace PatternScan.Json

/-- Only blanks. -/
def Blanks (cs : List Char) : Prop :=
  ∀ c ∈ cs, isBlank c

/-! ## What spells a value -/

mutual

/-- The text spells the value. -/
inductive Spells : Json → List Char → Prop
  | null : Spells null "null".toList
  | true : Spells (bool true) "true".toList
  | false : Spells (bool false) "false".toList
  | natural (n : Nat) : Spells (natural n) (Nat.toDigits 10 n)
  | text (s : List Char) : Spells (text s) (quote s)
  | nilArray {b : List Char} (hb : Blanks b) : Spells (array []) ('[' :: (b ++ [']']))
  | array {b cs : List Char} {vs : List Json} (hb : Blanks b) (h : SpellsItems vs cs) :
      Spells (array vs) ('[' :: (b ++ cs))
  | nilObject {b : List Char} (hb : Blanks b) : Spells (object []) ('\x7b' :: (b ++ ['\x7d']))
  | object {b cs : List Char} {fs : List (Option (List Char) × Json)} (hb : Blanks b)
      (h : SpellsFields fs cs) : Spells (object fs) ('\x7b' :: (b ++ cs))

/-- The text spells the items of an array from the first one up to the bracket. -/
inductive SpellsItems : List Json → List Char → Prop
  | last {v : Json} {cs b : List Char} (hv : Spells v cs) (hb : Blanks b) :
      SpellsItems [v] (cs ++ (b ++ [']']))
  | cons {v : Json} {cs b b' ds : List Char} {vs : List Json} (hv : Spells v cs) (hb : Blanks b)
      (hb' : Blanks b') (hvs : SpellsItems vs ds) :
      SpellsItems (v :: vs) (cs ++ (b ++ ',' :: (b' ++ ds)))

/-- The text spells the fields of an object from the first key up to the brace. -/
inductive SpellsFields : List (Option (List Char) × Json) → List Char → Prop
  | last {k : List Char} {v : Json} {b₁ b₂ cs b : List Char} (hb₁ : Blanks b₁) (hb₂ : Blanks b₂)
      (hv : Spells v cs) (hb : Blanks b) :
      SpellsFields [(some k, v)] (quote k ++ (b₁ ++ ':' :: (b₂ ++ (cs ++ (b ++ ['\x7d'])))))
  | cons {k : List Char} {v : Json} {b₁ b₂ cs b b' ds : List Char}
      {fs : List (Option (List Char) × Json)} (hb₁ : Blanks b₁) (hb₂ : Blanks b₂)
      (hv : Spells v cs) (hb : Blanks b) (hb' : Blanks b') (hfs : SpellsFields fs ds) :
      SpellsFields ((some k, v) :: fs)
        (quote k ++ (b₁ ++ ':' :: (b₂ ++ (cs ++ (b ++ ',' :: (b' ++ ds))))))

end

/-! ## Reading -/

/-- The text is read as the value if what follows does not go on with it. -/
def ReadsAs (cs : List Char) (v : Json) : Prop :=
  ∀ fuel rest, cs.length ≤ fuel → EndsNumber rest → readValue fuel (cs ++ rest) = some (v, rest)

/-- The text is read as the items. -/
def ReadsItems (cs : List Char) (vs : List Json) : Prop :=
  ∀ fuel rest, cs.length ≤ fuel → readItems fuel (cs ++ rest) = some (vs, rest)

/-- The text is read as the fields. -/
def ReadsFields (cs : List Char) (fs : List (Option (List Char) × Json)) : Prop :=
  ∀ fuel rest, cs.length ≤ fuel → readFields fuel (cs ++ rest) = some (fs, rest)

/-- The text starts with a character other than a blank and the closing bracket, as values do. -/
def StartsValue (cs : List Char) : Prop :=
  ∃ c cs', cs = c :: cs' ∧ isBlank c = false ∧ c ≠ ']'

section Read

variable {b cs ds : List Char} {c : Char}

theorem skipBlanks_append (hb : Blanks b) (hc : isBlank c = false) :
    skipBlanks (b ++ c :: cs) = c :: cs := by
  rw [skipBlanks, List.dropWhile_append_of_pos hb, List.dropWhile_cons_of_neg]
  exact Bool.eq_false_iff.1 hc

theorem endsNumber_append (hb : Blanks b) (h : EndsNumber cs) : EndsNumber (b ++ cs) := by
  cases b with
  | nil => exact h
  | cons c b =>
    rintro _ ⟨⟩
    have hc := hb c List.mem_cons_self
    simp only [isBlank, Bool.or_eq_true, decide_eq_true_eq] at hc
    rcases hc with ((rfl | rfl) | rfl) | rfl <;> decide

theorem endsNumber_cons (h : isDigit c = false ∧ c ≠ '.' ∧ c ≠ 'e' ∧ c ≠ 'E') :
    EndsNumber (c :: cs) := by
  rintro _ ⟨⟩
  exact h

/-- A value takes one unit of fuel, and so its first character pays for it. -/
theorem readsAs_cons {v : Json} (h : ∀ fuel rest, cs.length ≤ fuel → EndsNumber rest →
    readValue (fuel + 1) (c :: (cs ++ rest)) = some (v, rest)) : ReadsAs (c :: cs) v := by
  intro fuel rest hfuel hrest
  obtain ⟨fuel, rfl⟩ := Nat.exists_eq_add_one_of_ne_zero (Nat.ne_zero_of_lt hfuel)
  exact h fuel rest (Nat.le_of_succ_le_succ hfuel) hrest

theorem readsAs_word {word : String} {v : Json} {w : List Char} (hw : word.toList = c :: w)
    (hread : ∀ fuel cs, readValue (fuel + 1) (c :: cs) = readWord word v (c :: cs)) :
    ReadsAs word.toList v := by
  rw [hw]
  refine readsAs_cons fun fuel rest _ _ => ?_
  rw [hread, readWord, hw]
  simp

theorem readsAs_natural (n : Nat) : ReadsAs (Nat.toDigits 10 n) (natural n) := by
  obtain ⟨d, ds, hds, hd⟩ := exists_toDigits n
  rw [natural, hds]
  refine readsAs_cons fun fuel rest _ hrest => ?_
  have hread := readNumber_toDigits n hrest
  rw [hds, List.cons_append] at hread
  -- no other value starts with a digit
  have hne : ∀ c, isDigit c = false → d ≠ c := fun c hc => ne_of_isDigit hd hc
  rw [readValue, if_neg (hne _ (by decide)), if_neg (hne _ (by decide)),
    if_neg (hne _ (by decide)), if_neg (hne _ (by decide)), if_neg (hne _ (by decide)),
    if_neg (hne _ (by decide)), hread, Option.map_some]

theorem quote_eq_cons (s : List Char) : quote s = '"' :: (s.flatMap escapeChar ++ ['"']) := rfl

theorem quote_append (s rest : List Char) :
    quote s ++ rest = '"' :: (s.flatMap escapeChar ++ '"' :: rest) := by
  rw [quote_eq_cons, List.cons_append, List.append_assoc, List.singleton_append]

theorem readsAs_text (s : List Char) : ReadsAs (quote s) (text s) := by
  rw [quote_eq_cons]
  refine readsAs_cons fun fuel rest _ _ => ?_
  rw [readValue, if_pos rfl, List.append_assoc, List.singleton_append, readString_quote]
  rfl

theorem readsAs_nilArray (hb : Blanks b) : ReadsAs ('[' :: (b ++ [']'])) (array []) := by
  refine readsAs_cons fun fuel rest _ _ => ?_
  rw [List.append_assoc, List.singleton_append, readValue, if_neg (by decide), if_pos rfl,
    skipBlanks_append hb (by decide)]
  rfl

theorem readsAs_nilObject (hb : Blanks b) :
    ReadsAs ('\x7b' :: (b ++ ['\x7d'])) (object []) := by
  refine readsAs_cons fun fuel rest _ _ => ?_
  rw [List.append_assoc, List.singleton_append, readValue, if_neg (by decide), if_neg (by decide),
    if_pos rfl, skipBlanks_append hb (by decide)]
  rfl

theorem readsAs_array {vs : List Json} (hb : Blanks b) (hstart : StartsValue cs)
    (h : ReadsItems cs vs) : ReadsAs ('[' :: (b ++ cs)) (array vs) := by
  refine readsAs_cons fun fuel rest hfuel _ => ?_
  have hread := h fuel rest (Nat.le_trans (by simp) hfuel)
  obtain ⟨c, cs, rfl, hc, hclose⟩ := hstart
  rw [List.cons_append] at hread
  rw [List.append_assoc, List.cons_append, readValue, if_neg (by decide), if_pos rfl,
    skipBlanks_append hb hc]
  split
  · rename_i heq
    exact absurd (List.cons.inj heq).1 hclose
  · rw [hread, Option.map_some]

theorem readsAs_object {fs : List (Option (List Char) × Json)} (hb : Blanks b)
    (hstart : ∃ cs', cs = '"' :: cs') (h : ReadsFields cs fs) :
    ReadsAs ('\x7b' :: (b ++ cs)) (object fs) := by
  refine readsAs_cons fun fuel rest hfuel _ => ?_
  have hread := h fuel rest (Nat.le_trans (by simp) hfuel)
  obtain ⟨cs, rfl⟩ := hstart
  rw [List.cons_append] at hread
  rw [List.append_assoc, List.cons_append, readValue, if_neg (by decide), if_neg (by decide),
    if_pos rfl, skipBlanks_append hb (by decide)]
  split
  · rename_i heq
    exact absurd (List.cons.inj heq).1 (by decide)
  · rw [hread, Option.map_some]

/-! ## Items and fields -/

section Parts

variable {b' b₁ b₂ k tail : List Char} {v : Json} {vs : List Json} {fuel : Nat}
  {fs : List (Option (List Char) × Json)}

/-- The first item is read, and what stands behind it says how it goes on. -/
theorem readItems_append (hv : ReadsAs cs v) (hfuel : cs.length ≤ fuel) (htail : EndsNumber tail) :
    readItems (fuel + 1) (cs ++ tail) = match skipBlanks tail with
      | ']' :: rest => some ([v], rest)
      | ',' :: cs => do
        let (vs, rest) ← readItems fuel (skipBlanks cs)
        return (v :: vs, rest)
      | _ => none := by
  rw [readItems, hv fuel tail hfuel htail]
  rfl

theorem readsItems_last (hv : ReadsAs cs v) (hb : Blanks b) :
    ReadsItems (cs ++ (b ++ [']'])) [v] := by
  intro fuel rest hlen
  simp only [List.length_append, List.length_singleton, ← Nat.add_assoc] at hlen
  obtain ⟨fuel, rfl⟩ := Nat.exists_eq_add_one_of_ne_zero (Nat.ne_zero_of_lt hlen)
  rw [List.append_assoc, List.append_assoc, List.singleton_append,
    readItems_append hv (by omega) (endsNumber_append hb (endsNumber_cons (by decide))),
    skipBlanks_append hb (by decide)]
  rfl

theorem readsItems_cons (hv : ReadsAs cs v) (hb : Blanks b) (hb' : Blanks b')
    (hstart : StartsValue ds) (hvs : ReadsItems ds vs) :
    ReadsItems (cs ++ (b ++ ',' :: (b' ++ ds))) (v :: vs) := by
  intro fuel rest hlen
  simp only [List.length_append, List.length_cons, ← Nat.add_assoc] at hlen
  obtain ⟨fuel, rfl⟩ := Nat.exists_eq_add_one_of_ne_zero (show fuel ≠ 0 by omega)
  have hrest := hvs fuel rest (by omega)
  obtain ⟨c, ds, rfl, hc, -⟩ := hstart
  simp only [List.append_assoc, List.cons_append] at hrest ⊢
  rw [readItems_append hv (by omega) (endsNumber_append hb (endsNumber_cons (by decide))),
    skipBlanks_append hb (by decide)]
  simp only [skipBlanks_append hb' hc, hrest]
  rfl

/-- The first field is read, and what stands behind it says how it goes on. -/
theorem readFields_append (hb₁ : Blanks b₁) (hb₂ : Blanks b₂) (hstart : StartsValue cs)
    (hv : ReadsAs cs v) (hfuel : cs.length ≤ fuel) (htail : EndsNumber tail) :
    readFields (fuel + 1) (quote k ++ (b₁ ++ ':' :: (b₂ ++ (cs ++ tail)))) =
      match skipBlanks tail with
      | '\x7d' :: rest => some ([(some k, v)], rest)
      | ',' :: cs => do
        let (fs, rest) ← readFields fuel (skipBlanks cs)
        return ((some k, v) :: fs, rest)
      | _ => none := by
  have hread := hv fuel tail hfuel htail
  obtain ⟨c, cs, rfl, hc, -⟩ := hstart
  rw [quote_append, readFields, readString_quote]
  simp only [Option.bind_eq_bind, Option.bind_some]
  rw [skipBlanks_append hb₁ (by decide)]
  simp only
  rw [List.cons_append] at hread ⊢
  rw [skipBlanks_append hb₂ hc, hread]
  rfl

theorem readsFields_last (hb₁ : Blanks b₁) (hb₂ : Blanks b₂) (hstart : StartsValue cs)
    (hv : ReadsAs cs v) (hb : Blanks b) :
    ReadsFields (quote k ++ (b₁ ++ ':' :: (b₂ ++ (cs ++ (b ++ ['\x7d']))))) [(some k, v)] := by
  intro fuel rest hlen
  simp only [List.length_append, List.length_cons, ← Nat.add_assoc] at hlen
  obtain ⟨fuel, rfl⟩ := Nat.exists_eq_add_one_of_ne_zero (show fuel ≠ 0 by omega)
  simp only [List.append_assoc, List.cons_append, List.nil_append]
  rw [readFields_append hb₁ hb₂ hstart hv (by omega)
    (endsNumber_append hb (endsNumber_cons (by decide))), skipBlanks_append hb (by decide)]
  rfl

theorem readsFields_cons (hb₁ : Blanks b₁) (hb₂ : Blanks b₂) (hstart : StartsValue cs)
    (hv : ReadsAs cs v) (hb : Blanks b) (hb' : Blanks b') (hstart' : ∃ ds', ds = '"' :: ds')
    (hfs : ReadsFields ds fs) :
    ReadsFields (quote k ++ (b₁ ++ ':' :: (b₂ ++ (cs ++ (b ++ ',' :: (b' ++ ds))))))
      ((some k, v) :: fs) := by
  intro fuel rest hlen
  simp only [List.length_append, List.length_cons, ← Nat.add_assoc] at hlen
  obtain ⟨fuel, rfl⟩ := Nat.exists_eq_add_one_of_ne_zero (show fuel ≠ 0 by omega)
  have hrest := hfs fuel rest (by omega)
  obtain ⟨ds, rfl⟩ := hstart'
  simp only [List.append_assoc, List.cons_append] at hrest ⊢
  rw [readFields_append hb₁ hb₂ hstart hv (by omega)
    (endsNumber_append hb (endsNumber_cons (by decide))), skipBlanks_append hb (by decide)]
  simp only
  rw [skipBlanks_append hb' (by decide), hrest]
  rfl

end Parts

end Read

/-! ## Every value -/

theorem StartsValue.append {cs : List Char} (h : StartsValue cs) (ds : List Char) :
    StartsValue (cs ++ ds) := by
  obtain ⟨c, cs, rfl, hc⟩ := h
  exact ⟨c, cs ++ ds, rfl, hc⟩

theorem startsValue_toDigits (n : Nat) : StartsValue (Nat.toDigits 10 n) := by
  obtain ⟨d, ds, hds, hd⟩ := exists_toDigits n
  have hne : ∀ c, isDigit c = false → d ≠ c := fun c hc => ne_of_isDigit hd hc
  refine ⟨d, ds, hds, ?_, hne _ (by decide)⟩
  simp only [isBlank, Bool.or_eq_false_iff, decide_eq_false_iff_not]
  exact ⟨⟨⟨hne _ (by decide), hne _ (by decide)⟩, hne _ (by decide)⟩, hne _ (by decide)⟩

theorem Spells.startsValue {v : Json} {cs : List Char} (h : Spells v cs) : StartsValue cs := by
  cases h with
  | null => exact ⟨'n', _, rfl, by decide⟩
  | true => exact ⟨'t', _, rfl, by decide⟩
  | false => exact ⟨'f', _, rfl, by decide⟩
  | natural n => exact startsValue_toDigits n
  | text s => exact ⟨'"', _, rfl, by decide⟩
  | nilArray hb => exact ⟨'[', _, rfl, by decide⟩
  | array hb h => exact ⟨'[', _, rfl, by decide⟩
  | nilObject hb => exact ⟨'\x7b', _, rfl, by decide⟩
  | object hb h => exact ⟨'\x7b', _, rfl, by decide⟩

theorem SpellsItems.startsValue {vs : List Json} {cs : List Char} (h : SpellsItems vs cs) :
    StartsValue cs := by
  cases h with
  | last hv hb => exact hv.startsValue.append _
  | cons hv hb hb' hvs => exact hv.startsValue.append _

theorem SpellsFields.exists_cons {fs : List (Option (List Char) × Json)} {cs : List Char}
    (h : SpellsFields fs cs) : ∃ cs', cs = '"' :: cs' := by
  cases h with
  | last hb₁ hb₂ hv hb => exact ⟨_, quote_append _ _⟩
  | cons hb₁ hb₂ hv hb hb' hfs => exact ⟨_, quote_append _ _⟩

mutual

theorem Spells.readsAs {v : Json} {cs : List Char} : Spells v cs → ReadsAs cs v
  | .null => readsAs_word rfl fun _ _ => rfl
  | .true => readsAs_word rfl fun _ _ => rfl
  | .false => readsAs_word rfl fun _ _ => rfl
  | .natural n => readsAs_natural n
  | .text s => readsAs_text s
  | .nilArray hb => readsAs_nilArray hb
  | .array hb h => readsAs_array hb h.startsValue h.readsItems
  | .nilObject hb => readsAs_nilObject hb
  | .object hb h => readsAs_object hb h.exists_cons h.readsFields

theorem SpellsItems.readsItems {vs : List Json} {cs : List Char} :
    SpellsItems vs cs → ReadsItems cs vs
  | .last hv hb => readsItems_last hv.readsAs hb
  | .cons hv hb hb' hvs => readsItems_cons hv.readsAs hb hb' hvs.startsValue hvs.readsItems

theorem SpellsFields.readsFields {fs : List (Option (List Char) × Json)} {cs : List Char} :
    SpellsFields fs cs → ReadsFields cs fs
  | .last hb₁ hb₂ hv hb => readsFields_last hb₁ hb₂ hv.startsValue hv.readsAs hb
  | .cons hb₁ hb₂ hv hb hb' hfs =>
    readsFields_cons hb₁ hb₂ hv.startsValue hv.readsAs hb hb' hfs.exists_cons hfs.readsFields

end

/-- **A text that spells a value is read as it**, with blanks around it as well. -/
theorem parse?_of_spells {v : Json} {b cs b' : List Char} (hb : Blanks b) (h : Spells v cs)
    (hb' : Blanks b') : parse? (b ++ (cs ++ b')) = some v := by
  have hskip : skipBlanks (b ++ (cs ++ b')) = cs ++ b' := by
    obtain ⟨c, cs, rfl, hc, -⟩ := h.startsValue
    exact skipBlanks_append hb hc
  have hend : EndsNumber b' := by
    rw [← List.append_nil b']
    exact endsNumber_append hb' nofun
  have hnil : skipBlanks b' = [] := List.dropWhile_eq_nil_iff.2 hb'
  rw [parse?, hskip, h.readsAs _ _ (by simp only [List.length_append]; omega) hend]
  simp only [hnil]
  rfl

/-! ## What is written -/

/-- A value with natural numbers only in which every string and every key stands for a text. -/
inductive Plain : Json → Prop
  | null : Plain null
  | bool (b : Bool) : Plain (bool b)
  | natural (n : Nat) : Plain (natural n)
  | text (s : List Char) : Plain (text s)
  | array {vs : List Json} (h : ∀ v ∈ vs, Plain v) : Plain (array vs)
  | object {fs : List (Option (List Char) × Json)} (hkeys : ∀ f ∈ fs, f.1.isSome)
      (h : ∀ f ∈ fs, Plain f.2) : Plain (object fs)

theorem blanks_nil : Blanks [] :=
  List.forall_mem_nil _

theorem blanks_singleton : Blanks [' '] := by
  simp [Blanks, isBlank]

theorem blanks_newLine (depth : Nat) : Blanks (newLine depth) := by
  intro c hc
  rcases List.mem_cons.1 hc with rfl | hc
  · rfl
  · rw [List.eq_of_mem_replicate hc]
    rfl

section Write

variable (w : Json → List Char) {b b' gap : List Char} {v : Json} {vs : List Json}
  {fs : List (Option (List Char) × Json)}

/-- Items that are written one by one, with a comma and blanks between them. -/
theorem spellsItems_of_write (items : List Json → List Char) (hb : Blanks b) (hb' : Blanks b')
    (hnil : items [] = b ++ [']'])
    (hcons : ∀ u us, items (u :: us) = ',' :: (b' ++ (w u ++ items us)))
    (h : ∀ u ∈ v :: vs, Spells u (w u)) : SpellsItems (v :: vs) (w v ++ items vs) := by
  induction vs generalizing v with
  | nil =>
    rw [hnil]
    exact .last (h v List.mem_cons_self) hb
  | cons u vs ih =>
    have hitems := ih fun x hx => h x (List.mem_cons_of_mem _ hx)
    rw [hcons]
    exact SpellsItems.cons (b := []) (h v List.mem_cons_self) blanks_nil hb' hitems

/-- Fields that are written one by one, with a comma and blanks between them. -/
theorem spellsFields_of_write (fields : List (Option (List Char) × Json) → List Char)
    (hgap : Blanks gap) (hb : Blanks b) (hb' : Blanks b') (hnil : fields [] = b ++ ['\x7d'])
    (hcons : ∀ k? u us, fields ((k?, u) :: us) =
      ',' :: (b' ++ (quote? k? ++ ':' :: (gap ++ (w u ++ fields us)))))
    {k? : Option (List Char)} (hkeys : ∀ f ∈ (k?, v) :: fs, f.1.isSome)
    (h : ∀ f ∈ (k?, v) :: fs, Spells f.2 (w f.2)) :
    SpellsFields ((k?, v) :: fs) (quote? k? ++ ':' :: (gap ++ (w v ++ fields fs))) := by
  induction fs generalizing k? v with
  | nil =>
    obtain ⟨k, rfl⟩ := Option.isSome_iff_exists.1 (hkeys _ List.mem_cons_self)
    have hv := h _ List.mem_cons_self
    rw [hnil]
    exact SpellsFields.last blanks_nil hgap hv hb
  | cons f fs ih =>
    obtain ⟨k, rfl⟩ := Option.isSome_iff_exists.1 (hkeys _ List.mem_cons_self)
    have hv := h _ List.mem_cons_self
    have hfields := ih (fun g hg => hkeys g (List.mem_cons_of_mem _ hg))
      fun g hg => h g (List.mem_cons_of_mem _ hg)
    rw [hcons]
    exact SpellsFields.cons (b := []) blanks_nil hgap hv blanks_nil hb' hfields

/-- **The compact form of a value spells it.** -/
theorem Plain.spells_compact (h : Plain v) : Spells v v.compact := by
  induction h with
  | null => exact .null
  | bool b =>
    cases b with
    | true => exact .true
    | false => exact .false
  | natural n => exact .natural n
  | text s => exact .text s
  | @array vs h ih =>
    cases vs with
    | nil => exact .nilArray blanks_nil
    | cons v vs =>
      have hitems := spellsItems_of_write compact compactItems blanks_nil blanks_nil rfl
        (fun _ _ => rfl) ih
      exact Spells.array (b := []) blanks_nil hitems
  | @object fs hkeys h ih =>
    cases fs with
    | nil => exact .nilObject blanks_nil
    | cons f fs =>
      have hfields := spellsFields_of_write compact compactFields blanks_nil blanks_nil blanks_nil
        rfl (fun _ _ _ => rfl) hkeys ih
      exact Spells.object (b := []) blanks_nil hfields

theorem Plain.spells_prettyAt (h : Plain v) (depth : Nat) : Spells v (v.prettyAt depth) := by
  induction h generalizing depth with
  | null => exact .null
  | bool b =>
    cases b with
    | true => exact .true
    | false => exact .false
  | natural n => exact .natural n
  | text s => exact .text s
  | @array vs h ih =>
    cases vs with
    | nil => exact .nilArray blanks_nil
    | cons v vs =>
      have hitems := spellsItems_of_write (prettyAt (depth + 1)) (prettyItems depth)
        (blanks_newLine depth) (blanks_newLine (depth + 1)) rfl
        (fun u us => by rw [prettyItems, List.append_assoc]) fun u hu => ih u hu (depth + 1)
      rw [prettyAt, List.append_assoc]
      exact .array (blanks_newLine (depth + 1)) hitems
  | @object fs hkeys h ih =>
    cases fs with
    | nil => exact .nilObject blanks_nil
    | cons f fs =>
      have hfields := spellsFields_of_write (prettyAt (depth + 1)) (prettyFields depth)
        blanks_singleton (blanks_newLine depth) (blanks_newLine (depth + 1)) rfl
        (fun k? u us => by rw [prettyFields, List.append_assoc]; rfl) hkeys
        fun f hf => ih f hf (depth + 1)
      rw [prettyAt, List.append_assoc]
      exact .object (blanks_newLine (depth + 1)) hfields

/-- **The indented form of a value spells it.** -/
theorem Plain.spells_pretty (h : Plain v) : Spells v v.pretty :=
  h.spells_prettyAt 0

end Write

end PatternScan.Json
