import PatternScan.Proofs.Json
import PatternScan.Report.Json

/-!
# Reports read back from JSON

Every structure of a report is read back from the value that stands for it, provided that the
numbers of its occurrences are words (`Report.ofJson?_toJson`). These values are plain, so a text
that spells one is read as the report, whatever blanks it has (`Report.parse?_of_spells`), and the
compact and the indented form are such texts.
-/

namespace PatternScan

theorem mapM_map_of_forall {α β : Type} {f : α → β} {g : β → Option α} {xs : List α}
    (h : ∀ x ∈ xs, g (f x) = some x) : (xs.map f).mapM g = some xs := by
  induction xs with
  | nil => rfl
  | cons x xs ih =>
    rw [List.map_cons, List.mapM_cons, h x List.mem_cons_self,
      ih fun y hy => h y (List.mem_cons_of_mem _ hy)]
    rfl

namespace Occurrence

/-- The numbers of an occurrence are words. -/
structure Fits (o : Occurrence) : Prop where
  start_lt : o.start < UInt64.size
  len_lt : o.len < UInt64.size
  pattern_lt : o.pattern < UInt64.size

variable {o : Occurrence}

theorem plain_toJson (o : Occurrence) : o.toJson.Plain := by
  refine .object ?_ ?_
  · simp [Json.field]
  · simp [Json.field, Json.Plain.natural]

theorem ofJson?_toJson (h : o.Fits) : ofJson? o.toJson = some o := by
  have hfields : o.toJson.fields? ["start", "len", "pattern"] =
      some [.natural o.start, .natural o.len, .natural o.pattern] := rfl
  rw [ofJson?, hfields]
  simp only [Option.bind_eq_bind, Option.bind_some, Json.natural?_natural h.start_lt,
    Json.natural?_natural h.len_lt, Json.natural?_natural h.pattern_lt]
  rfl

end Occurrence

namespace FileResult

variable {f : FileResult}

theorem plain_toJson (f : FileResult) : f.toJson.Plain := by
  refine .object ?_ ?_
  · simp [Json.field]
  · have hfound : ∀ v ∈ f.found.toList.map Occurrence.toJson, v.Plain :=
      List.forall_mem_map.2 fun o _ => o.plain_toJson
    simp [Json.field, Json.Plain.text, Json.Plain.array hfound]

theorem ofJson?_toJson (h : ∀ o ∈ f.found, o.Fits) : ofJson? f.toJson = some f := by
  have hfields : f.toJson.fields? ["path", "matches"] =
      some [.text f.path.toList, .array (f.found.toList.map Occurrence.toJson)] := rfl
  have hfound : (f.found.toList.map Occurrence.toJson).mapM Occurrence.ofJson? =
      some f.found.toList :=
    mapM_map_of_forall fun o ho => Occurrence.ofJson?_toJson (h o (Array.mem_toList_iff.1 ho))
  rw [ofJson?, hfields]
  simp only [Option.bind_eq_bind, Option.bind_some, Json.items?, hfound]
  simp

end FileResult

namespace Report

/-- The numbers of all occurrences are words. -/
def Fits (r : Report) : Prop :=
  ∀ f ∈ r.results, ∀ o ∈ f.found, o.Fits

variable {r : Report}

theorem plain_toJson (r : Report) : r.toJson.Plain := by
  refine .object ?_ ?_
  · simp [Json.field]
  · have hresults : ∀ v ∈ r.results.toList.map FileResult.toJson, v.Plain :=
      List.forall_mem_map.2 fun f _ => f.plain_toJson
    simp [Json.field, Json.Plain.natural, Json.Plain.array hresults]

/-- **The value of a report is read as the report.** -/
theorem ofJson?_toJson (h : r.Fits) : ofJson? r.toJson = some r := by
  have hfields : r.toJson.fields?
      ["file_results", "total_matches", "files_searched", "files_with_matches"] =
      some [.array (r.results.toList.map FileResult.toJson), .natural r.total.toNat,
        .natural r.searched.toNat, .natural r.matched.toNat] := rfl
  have hresults : (r.results.toList.map FileResult.toJson).mapM FileResult.ofJson? =
      some r.results.toList :=
    mapM_map_of_forall fun f hf => FileResult.ofJson?_toJson (h f (Array.mem_toList_iff.1 hf))
  rw [ofJson?, hfields]
  simp only [Option.bind_eq_bind, Option.bind_some, Json.items?, hresults,
    Json.natural?_natural (UInt64.toNat_lt_size _)]
  simp

/-- A text that spells the value of a report is read as the report. -/
theorem parse?_of_spells (h : r.Fits) {text : String} (htext : r.toJson.Spells text.toList) :
    parse? text = some r := by
  have hread := Json.parse?_of_spells Json.blanks_nil htext Json.blanks_nil
  rw [List.nil_append, List.append_nil] at hread
  rw [parse?, hread]
  exact ofJson?_toJson h

/-- **Both forms of a report are JSON for it and are read back as it**, with any characters in the
paths and any totals. -/
theorem parse?_written (h : r.Fits) :
    (r.toJson.Spells r.compact.toList ∧ parse? r.compact = some r) ∧
      r.toJson.Spells r.pretty.toList ∧ parse? r.pretty = some r := by
  have hcompact : r.toJson.Spells r.compact.toList := by
    rw [compact, String.toList_ofList]
    exact r.plain_toJson.spells_compact
  have hpretty : r.toJson.Spells r.pretty.toList := by
    rw [pretty, String.toList_ofList]
    exact r.plain_toJson.spells_pretty
  exact ⟨⟨hcompact, parse?_of_spells h hcompact⟩, hpretty, parse?_of_spells h hpretty⟩

/-- A path with a quote, a backslash, a control character and a letter that takes two bytes, and
totals that no scan would give. -/
theorem parse?_written_anyPath :
    let r : Report := {
      results := #[⟨"a \"b\"\\c\x01é", #[⟨0, 2, 18446744073709551615⟩, ⟨1, 0, 0⟩]⟩, ⟨"", #[]⟩]
      total := 18446744073709551615
      matched := 3 }
    r.Fits ∧ (r.toJson.Spells r.compact.toList ∧ parse? r.compact = some r) ∧
      r.toJson.Spells r.pretty.toList ∧ parse? r.pretty = some r := by
  intro r
  have hfits : r.Fits := by
    intro f hf o ho
    have hwords : ∀ f ∈ r.results, ∀ o ∈ f.found,
        o.start < UInt64.size ∧ o.len < UInt64.size ∧ o.pattern < UInt64.size := by decide
    obtain ⟨hstart, hlen, hpattern⟩ := hwords f hf o ho
    exact ⟨hstart, hlen, hpattern⟩
  exact ⟨hfits, parse?_written hfits⟩

end Report

end PatternScan
