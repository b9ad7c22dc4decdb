import PatternScan.Json.Parser
import PatternScan.Report

/-!
# Reports as JSON

Every structure is an object with its fields in a fixed order. Reading also takes an array of
exactly the fields in that order; in an object the fields may come in any order, none may be missing
or given twice, and fields of other names are passed over.
-/

namespace PatternScan

/-- The values of the named fields of an object or of an array that stands for one. -/
def Json.fields? (names : List String) : Json → Option (List Json)
  | .array vs => if vs.length = names.length then some vs else none
  | .object fs =>
    if fs.all fun (k, _) => k.isSome then
      names.mapM fun name =>
        match fs.filter fun (k, _) => k = some name.toList with
        | [(_, v)] => some v
        | _ => none
    else none
  | _ => none

/-- The items of an array. -/
def Json.items? : Json → Option (List Json)
  | .array vs => some vs
  | _ => none

namespace Occurrence

/-- An occurrence as a JSON object. -/
def toJson (o : Occurrence) : Json :=
  .object [Json.field "start" (.natural o.start), Json.field "len" (.natural o.len),
    Json.field "pattern" (.natural o.pattern)]

/-- The occurrence a JSON value stands for. -/
def ofJson? (v : Json) : Option Occurrence := do
  match ← v.fields? ["start", "len", "pattern"] with
  | [start, len, pattern] => return ⟨← start.natural?, ← len.natural?, ← pattern.natural?⟩
  | _ => none

end Occurrence

namespace FileResult

/-- The result of a file as a JSON object. -/
def toJson (f : FileResult) : Json :=
  .object [Json.field "path" (.text f.path.toList),
    Json.field "matches" (.array (f.found.toList.map Occurrence.toJson))]

/-- The result of a file that a JSON value stands for. -/
def ofJson? (v : Json) : Option FileResult := do
  match ← v.fields? ["path", "matches"] with
  | [.text path, found] =>
    return ⟨String.ofList path, (← (← found.items?).mapM Occurrence.ofJson?).toArray⟩
  | _ => none

end FileResult

namespace Report

/-- A report as a JSON object. -/
def toJson (r : Report) : Json :=
  .object [Json.field "file_results" (.array (r.results.toList.map FileResult.toJson)),
    Json.field "total_matches" (.natural r.total.toNat),
    Json.field "files_searched" (.natural r.searched.toNat),
    Json.field "files_with_matches" (.natural r.matched.toNat)]

/-- The report a JSON value stands for. -/
def ofJson? (v : Json) : Option Report := do
  match ← v.fields? ["file_results", "total_matches", "files_searched", "files_with_matches"] with
  | [results, total, searched, matched] =>
    return {
      results := (← (← results.items?).mapM FileResult.ofJson?).toArray
      total := .ofNat (← total.natural?)
      searched := .ofNat (← searched.natural?)
      matched := .ofNat (← matched.natural?) }
  | _ => none

/-- The report written in a JSON text. -/
def parse? (text : String) : Option Report := do
  ofJson? (← Json.parse? text.toList)

/-- A report as JSON without blanks. -/
def compact (r : Report) : String :=
  String.ofList r.toJson.compact

/-- A report as JSON over indented lines. -/
def pretty (r : Report) : String :=
  String.ofList r.toJson.pretty

end Report

end PatternScan
