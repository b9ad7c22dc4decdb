import PatternScan.Proofs.Path
import PatternScan.Settings

/-!
# Layers of settings

Every field of a layer is laid over the one below by one rule: it counts unless it is silent
(`ite_silent_assoc`), only that a layer that names one source of patterns clears the other below it.
Laying settings over settings is associative (`merge_assoc`), and settings that are equal up to the
way their paths are written stay so (`same_merge`). Of any number of layers the last one that names
a source decides where the patterns come from (`sourceAs_foldl_of_namesSource`), while each of them
can switch on that they are hexadecimal (`hexPatterns_foldl`).
-/

namespace PatternScan.Settings

/-! ## A field that counts unless it is silent -/

section Silent

variable {α : Type} (silent : α → Prop) [DecidablePred silent]

theorem ite_silent_assoc (a b c : α) :
    (if silent c then if silent b then a else b else c) =
      if silent (if silent c then b else c) then a else if silent c then b else c := by
  by_cases h : silent c
  · rw [if_pos h, if_pos h]
  · rw [if_neg h, if_neg h, if_neg h]

theorem ite_silent_self (a b : α) :
    (if silent b then if silent b then a else b else b) = if silent b then a else b := by
  by_cases h : silent b
  · rw [if_pos h]
  · rw [if_neg h, if_neg h]

end Silent

/-! ## Two layers and three -/

variable {n : Nat} {base upper : Settings}

theorem merge_rootPath : (base.merge n upper).rootPath =
    if Path.same upper.rootPath "." then base.rootPath else upper.rootPath :=
  rfl

theorem merge_threadCount : (base.merge n upper).threadCount =
    if upper.threadCount = n then base.threadCount else upper.threadCount :=
  rfl

theorem merge_logLevel : (base.merge n upper).logLevel =
    if upper.logLevel = "warn" then base.logLevel else upper.logLevel :=
  rfl

/-- **Laying settings over settings is associative.** -/
theorem merge_assoc (a b c : Settings) :
    (a.merge n b).merge n c = a.merge n (b.merge n c) := by
  simp only [merge, mk.injEq]
  refine ⟨?patterns, Bool.or_assoc _ _ _, ?automaton, ite_silent_assoc (Path.same · _ = true) _ _ _,
    ite_silent_assoc (List.isEmpty · = true) _ _ _, Bool.or_assoc _ _ _, Bool.or_assoc _ _ _,
    ite_silent_assoc (· = _) _ _ _, ite_silent_assoc (· = _) _ _ _⟩
  -- each source depends on whether the layers above name the other one
  case patterns =>
    obtain ⟨_ | _, _, _ | _⟩ := b <;> obtain ⟨_ | _, _, _ | _⟩ := c <;> rfl
  case automaton =>
    obtain ⟨_ | _, _, _ | _⟩ := b <;> obtain ⟨_ | _, _, _ | _⟩ := c <;> rfl

theorem merge_defaults (a : Settings) : a.merge n (defaults n) = a := by
  simp [merge, defaults, Path.same_refl]

theorem merge_merge_self (a b : Settings) : (a.merge n b).merge n b = a.merge n b := by
  simp only [merge, mk.injEq]
  refine ⟨?patterns, ?hex, ?automaton, ite_silent_self (Path.same · _ = true) _ _,
    ite_silent_self (List.isEmpty · = true) _ _, ?first, ?stats, ite_silent_self (· = _) _ _,
    ite_silent_self (· = _) _ _⟩
  case patterns => obtain ⟨_ | _, _, _ | _⟩ := b <;> rfl
  case automaton => obtain ⟨_ | _, _, _ | _⟩ := b <;> rfl
  all_goals rw [Bool.or_assoc, Bool.or_self]

/-! ## Ways of writing a path -/

theorem same_iff {a b : Settings} : same a b ↔
    a.patternsFile.map Path.components = b.patternsFile.map Path.components ∧
    a.automatonPath.map Path.components = b.automatonPath.map Path.components ∧
    Path.same a.rootPath b.rootPath ∧ a.hexPatterns = b.hexPatterns ∧
    a.ignorePatterns = b.ignorePatterns ∧ a.firstOnly = b.firstOnly ∧
    a.statsOnly = b.statsOnly ∧ a.threadCount = b.threadCount ∧ a.logLevel = b.logLevel := by
  simp [same, samePath?, and_assoc]

theorem same_refl (a : Settings) : same a a :=
  same_iff.2 ⟨rfl, rfl, Path.same_refl a.rootPath, rfl, rfl, rfl, rfl, rfl, rfl⟩

theorem isSome_eq_of_map_eq {p q : Option String}
    (h : p.map Path.components = q.map Path.components) : p.isSome = q.isSome := by
  rw [← Option.isSome_map, h, Option.isSome_map]

theorem map_orElse_congr {p p' q q' : Option String}
    (hp : p.map Path.components = p'.map Path.components)
    (hq : q.map Path.components = q'.map Path.components) :
    (p.orElse fun _ => q).map Path.components = (p'.orElse fun _ => q').map Path.components := by
  cases p <;> cases p' <;> simp_all

/-- **Equal settings stay equal** however their paths are written. -/
theorem same_merge {a a' b b' : Settings} (ha : same a a') (hb : same b b') :
    same (a.merge n b) (a'.merge n b') := by
  rw [same_iff] at *
  obtain ⟨hpatterns, hautomaton, hroot, hhex, hignore, hfirst, hstats, hthreads, hlevel⟩ := ha
  obtain ⟨hpatterns', hautomaton', hroot', hhex', hignore', hfirst', hstats', hthreads', hlevel'⟩ :=
    hb
  have hsilent : Path.same b.rootPath "." = Path.same b'.rootPath "." := by
    rw [Path.same, Path.same, of_decide_eq_true hroot']
  refine ⟨?patterns, map_orElse_congr hautomaton' ?automaton, ?root, ?hex, ?ignore, ?first, ?stats,
    ?threads, ?level⟩
  case patterns =>
    rw [merge, merge, isSome_eq_of_map_eq hautomaton']
    split
    · rfl
    · exact map_orElse_congr hpatterns' hpatterns
  case automaton =>
    rw [isSome_eq_of_map_eq hpatterns']
    split
    · rfl
    · exact hautomaton
  case root =>
    rw [merge_rootPath, merge_rootPath, hsilent]
    split
    · exact hroot
    · exact hroot'
  case hex => rw [merge, merge, hhex, hhex']
  case ignore => rw [merge, merge, hignore, hignore']
  case first => rw [merge, merge, hfirst, hfirst']
  case stats => rw [merge, merge, hstats, hstats']
  case threads => rw [merge_threadCount, merge_threadCount, hthreads, hthreads']
  case level => rw [merge_logLevel, merge_logLevel, hlevel, hlevel']

/-! ## The source of the patterns -/

variable {hex : Bool} {layers : List Settings}

/-- The settings name a source of patterns. -/
def namesSource (s : Settings) : Bool :=
  s.automatonPath.isSome || s.patternsFile.isSome

/-- The source of the patterns if a pattern file is read as hexadecimal digits, or is not. -/
def sourceAs (hex : Bool) (s : Settings) : Except Error PatternSource :=
  { s with hexPatterns := hex }.source

/-- Either the upper layer names a source, or it has nothing to say about it. -/
theorem sourceAs_merge : (base.merge n upper).sourceAs hex =
    if upper.namesSource then upper.sourceAs hex else base.sourceAs hex := by
  unfold sourceAs source namesSource merge
  cases upper.automatonPath <;> cases upper.patternsFile <;> rfl

theorem sourceAs_foldl_of_silent (h : ∀ l ∈ layers, ¬l.namesSource) :
    (layers.foldl (merge n) base).sourceAs hex = base.sourceAs hex := by
  induction layers generalizing base with
  | nil => rfl
  | cons l layers ih =>
    obtain ⟨hl, hlayers⟩ := List.forall_mem_cons.1 h
    rw [List.foldl_cons, ih hlayers, sourceAs_merge, if_neg hl]

theorem sourceAs_foldl_of_namesSource {before after : List Settings} {l : Settings}
    (hl : l.namesSource) (h : ∀ u ∈ after, ¬u.namesSource) :
    ((before ++ l :: after).foldl (merge n) base).sourceAs hex = l.sourceAs hex := by
  rw [List.foldl_append, List.foldl_cons, sourceAs_foldl_of_silent h, sourceAs_merge, if_pos hl]

theorem hexPatterns_foldl : (layers.foldl (merge n) base).hexPatterns =
    (base.hexPatterns || layers.any (·.hexPatterns)) := by
  induction layers generalizing base with
  | nil => exact (Bool.or_false _).symm
  | cons l layers ih => rw [List.foldl_cons, ih, List.any_cons, ← Bool.or_assoc, merge]

theorem source_foldl : (layers.foldl (merge n) base).source =
    (layers.foldl (merge n) base).sourceAs (base.hexPatterns || layers.any (·.hexPatterns)) := by
  rw [← hexPatterns_foldl]
  rfl

/-- **Settings in layers.** It does not matter in which order settings are laid over one another as
long as they keep their places, defaults on top change nothing, and neither do the same settings
laid on top once more. Nor does it matter how paths are written: settings that are equal by the
components of their paths stay so. Of any number of layers the last one that names a source decides
where the patterns come from, by its automaton if it names both; if none does, the base decides. A
pattern file is hexadecimal exactly if the base or some layer says so. -/
theorem merge_layers (n : Nat) :
    (∀ a b c : Settings, (a.merge n b).merge n c = a.merge n (b.merge n c)) ∧
    (∀ a : Settings, a.merge n (defaults n) = a) ∧
    (∀ a b : Settings, (a.merge n b).merge n b = a.merge n b) ∧
    (∀ a a' b b' : Settings, same a a' → same b b' → same (a.merge n b) (a'.merge n b')) ∧
    ∀ (base : Settings) (layers : List Settings) (hex : Bool),
      hex = (base.hexPatterns || layers.any (·.hexPatterns)) →
      (∀ before l after, layers = before ++ l :: after → (∀ u ∈ after, ¬u.namesSource) →
        (∀ path, l.automatonPath = some path →
          (layers.foldl (merge n) base).source = .ok (.automaton path)) ∧
        ∀ path, l.automatonPath = none → l.patternsFile = some path →
          (layers.foldl (merge n) base).source =
            .ok (if hex then .hexFile path else .literalFile path)) ∧
      ((∀ l ∈ layers, ¬l.namesSource) →
        (layers.foldl (merge n) base).source = { base with hexPatterns := hex }.source) := by
  refine ⟨merge_assoc, merge_defaults, merge_merge_self, fun _ _ _ _ => same_merge, ?_⟩
  rintro base layers hex rfl
  refine ⟨?_, fun h => by rw [source_foldl, sourceAs_foldl_of_silent h, sourceAs]⟩
  rintro before l after rfl h
  refine ⟨fun path hautomaton => ?_, fun path hautomaton hpatterns => ?_⟩
  · have hl : l.namesSource := by rw [namesSource, hautomaton]; rfl
    rw [source_foldl, sourceAs_foldl_of_namesSource hl h, sourceAs, source, hautomaton]
  · have hl : l.namesSource := by rw [namesSource, hautomaton, hpatterns]; rfl
    rw [source_foldl, sourceAs_foldl_of_namesSource hl h, sourceAs, source, hautomaton, hpatterns]

/-- Over a base with a pattern file, a layer that says only that it is hexadecimal; below it a layer
that names both sources; and between them one that names another pattern file. Over that a layer
with a root, which is written in two ways. -/
theorem merge_layers_three :
    let base : Settings := { defaults 4 with patternsFile := some "words.txt" }
    let both : Settings :=
      { defaults 4 with patternsFile := some "more.txt", automatonPath := some "sigs.acs" }
    let file : Settings := { defaults 4 with patternsFile := some "sigs.txt" }
    let hex : Settings := { defaults 4 with hexPatterns := true }
    ([hex].foldl (merge 4) base).source = .ok (.hexFile "words.txt") ∧
      ([both, hex].foldl (merge 4) base).source = .ok (.automaton "sigs.acs") ∧
      ([both, file, hex].foldl (merge 4) base).source = .ok (.hexFile "sigs.txt") ∧
      same (file.merge 4 { defaults 4 with rootPath := "src/" })
        (file.merge 4 { defaults 4 with rootPath := "src" }) := by
  intro base both file hex
  obtain ⟨-, -, -, hsame, hlayers⟩ := merge_layers 4
  refine ⟨(hlayers base [hex] true rfl).2 (by decide), ?_, ?_, ?_⟩
  · exact ((hlayers base [both, hex] true rfl).1 [] both [hex] rfl (by decide)).1 _ rfl
  · have hfile := (hlayers base [both, file, hex] true rfl).1 [both] file [hex] rfl (by decide)
    exact hfile.2 _ rfl rfl
  · exact hsame _ _ _ _ (same_refl file) (by decide +kernel)

end PatternScan.Settings
