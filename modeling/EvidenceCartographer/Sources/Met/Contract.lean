import EvidenceCartographer.Application.Bronze
import EvidenceCartographer.Python.Int

/-! The versioned Met contract: what the header of a snapshot must be, and how one row is classified.

    `csv.reader` and the file behind it are outside: `HeaderRead` is what the first `next` on it gave.
    Which texts `datetime.fromisoformat` accepts depends on the Python release, so it is a parameter
    of the row contract. -/

namespace EvidenceCartographer.Sources.Met

open Python Domain Application

def metV1KnownColumns : List String :=
  ["Object Number", "Is Highlight", "Is Timeline Work", "Is Public Domain", "Object ID",
   "Gallery Number", "Department", "AccessionYear", "Object Name", "Title", "Culture", "Period",
   "Dynasty", "Reign", "Portfolio", "Constituent ID", "Artist Role", "Artist Prefix",
   "Artist Display Name", "Artist Display Bio", "Artist Suffix", "Artist Alpha Sort",
   "Artist Nationality", "Artist Begin Date", "Artist End Date", "Artist Gender", "Artist ULAN URL",
   "Artist Wikidata URL", "Object Date", "Object Begin Date", "Object End Date", "Medium",
   "Dimensions", "Credit Line", "Geography Type", "City", "State", "County", "Country", "Region",
   "Subregion", "Locale", "Locus", "Excavation", "River", "Classification",
   "Rights and Reproduction", "Link Resource", "Object Wikidata URL", "Metadata Date", "Repository",
   "Tags", "Tags AAT URL", "Tags Wikidata URL"]

def metV1RequiredColumns : List String :=
  ["Object ID", "Object Number", "Is Public Domain", "Department", "Object Name", "Title",
   "Artist Display Name", "Object Date", "Classification", "Link Resource", "Metadata Date",
   "Repository"]

def recommendedValueFields : List String :=
  ["Object Number", "Department", "Object Name", "Title", "Link Resource", "Metadata Date",
   "Repository"]

def publicDomainValues : List String := ["true", "false"]

/-- `next(csv.reader(source))`: a row, its `StopIteration`, one of the exceptions `inspect`
    translates, by its text, or any other one. -/
inductive HeaderRead where
  | row (header : List String)
  | empty
  | failed (message : String)
  | raised (exc : Exc)

structure MetCsvPreflightResult where
  columns : List String
  contractMessages : List ValidationMessage

/-- `', '.join(sorted(names))`. -/
def joinSorted (names : List String) : String :=
  ", ".intercalate (names.mergeSort fun a b => decide (a ≤ b))

/-- `MetCsvPreflight.inspect`. -/
def inspect : HeaderRead → Except Exc MetCsvPreflightResult
  | .empty => .error (.metCsvSchemaError "Met CSV is empty")
  | .failed message => .error (.metCsvSchemaError ("could not read Met CSV header: " ++ message))
  | .raised exc => .error exc
  | .row header =>
    if header = [] ∨ "" ∈ header then
      .error (.metCsvSchemaError "Met CSV header contains a blank column name")
    else if ¬ header.Nodup then
      .error (.metCsvSchemaError "Met CSV header contains duplicate column names")
    else
      let missing := metV1RequiredColumns.filter (· ∉ header)
      let unexpected := header.filter (· ∉ metV1KnownColumns)
      if missing ≠ [] then
        .error (.metCsvSchemaError
          ("Met CSV is missing required columns: " ++ joinSorted missing))
      else
        .ok { columns := header
              contractMessages := if unexpected = [] then [] else
                [⟨"unexpected_columns", "Met CSV added columns: " ++ joinSorted unexpected,
                  none⟩] }

/-- The cells of a row by column: a text, or a null. -/
abbrev Payload := List (String × Option String)

/-- `payload.get(name)`. -/
def Payload.get (payload : Payload) (name : String) : Option String := (payload.lookup name).join

structure RawRecord where
  sourceRecordId : String
  sourceRowNumber : Option Nat
  payload : Payload
  sourceRowNumber_ge : ∀ n, sourceRowNumber = some n → 2 ≤ n

def parsePositiveObjectId (value : Option String) : Option Int :=
  match value with
  | none => none
  | some text =>
    match int (strip text) with
    | none => none
    | some parsed => if 0 < parsed then some parsed else none

/-- `value.replace("Z", "+00:00")`. -/
def replaceZ (value : String) : String :=
  .ofList (value.toList.flatMap fun c => if c = 'Z' then "+00:00".toList else [c])

namespace MetRowContract

variable (fromisoformat : String → Bool)

/-- The message for a recommended field, if its value is blank. -/
def recommendedMessage (payload : Payload) (field : String) : Option ValidationMessage :=
  if ((payload.get field).map strip).getD "" = "" then
    some ⟨"missing_recommended_value", field ++ " is blank", some field⟩
  else none

/-- No character outside ASCII has a lower case inside one of the two values. -/
def publicDomainMessage (payload : Payload) : Option ValidationMessage :=
  if ((payload.get "Is Public Domain").map fun value => (strip value).toLower).any
      (publicDomainValues.contains ·) then none
  else some ⟨"invalid_public_domain_value", "Is Public Domain must be True or False",
    some "Is Public Domain"⟩

/-- A blank date is not looked at here. -/
def metadataDateMessage (payload : Payload) : Option ValidationMessage :=
  match payload.get "Metadata Date" with
  | none => none
  | some value =>
    if strip value = "" ∨ fromisoformat (replaceZ (strip value)) then none
    else some ⟨"invalid_metadata_date", "Metadata Date must be an ISO-style date or timestamp",
      some "Metadata Date"⟩

/-- `MetRowContract.validate`. -/
def validate (record : RawRecord) : ContractResult :=
  if parsePositiveObjectId (record.payload.get "Object ID") = none then
    ⟨.quarantined, [⟨"invalid_object_id", "Object ID must be a positive integer",
      some "Object ID"⟩]⟩
  else
    let messages := recommendedValueFields.filterMap (recommendedMessage record.payload) ++
      (publicDomainMessage record.payload).toList ++
      (metadataDateMessage fromisoformat record.payload).toList
    ⟨if messages = [] then .accepted else .acceptedWithWarnings, messages⟩

end MetRowContract

/-- No header that is missing a required column is let through. -/
theorem inspect_ok {read : HeaderRead} {preflight : MetCsvPreflightResult}
    (h : inspect read = .ok preflight) : read = .row preflight.columns ∧
      preflight.columns.Nodup ∧ ∀ column ∈ metV1RequiredColumns, column ∈ preflight.columns := by
  rcases read with header | _ | message | exc
  · simp only [inspect] at h
    split at h
    · cases h
    split at h
    · cases h
    rename_i hnodup
    split at h
    · cases h
    rename_i hmissing
    cases h
    refine ⟨rfl, of_not_not hnodup, fun column hcolumn => ?_⟩
    by_contra habsent
    have hmem : column ∈ metV1RequiredColumns.filter (· ∉ header) := by
      simp [hcolumn, habsent]
    rw [of_not_not hmissing] at hmem
    cases hmem
  · cases h
  · cases h
  · cases h

example : (inspect (.row metV1KnownColumns)).toOption.map (·.contractMessages) = some [] := by
  decide +kernel

end EvidenceCartographer.Sources.Met
