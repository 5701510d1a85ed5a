import ApiIntake.Proofs.Json.Text
import ApiIntake.Tool.Basic
import Mathlib.Data.List.Basic

/-!
# The JSON form of a configuration

A configuration is what is read from its JSON form (`ServerConfig.ofJson?_toJson`), and so
are its tools and their arguments.  Configurations are told apart by their texts
(`ServerConfig.eq_of_contentText`).
-/

namespace ApiIntake

/-- Things that are read from what each of them is written as are read from a list of that. -/
theorem mapM_map_eq_some {α : Type} {read : Json → Option α} {write : α → Json}
    (h : ∀ a, read (write a) = some a) (l : List α) :
  (l.map write).mapM read = some l
  := by
  induction l with
  | nil => rfl
  | cons a l ih =>
      rw [List.map_cons, List.mapM_cons, h, ih]
      rfl

/-- A text that may be absent stands under its key, and in front of the members behind it. -/
theorem lookup_textMember (key k : String) (s : Option String) (l : List (String × Json)) :
  (textMember key s ++ l).lookup k =
    if k = key then (s.map Json.str).or (l.lookup k) else l.lookup k
  := by
  cases s with
  | none => simp [textMember, Json.optional]
  | some t =>
      by_cases h : k = key
      · simp [textMember, Json.optional, h]
      · simp [textMember, Json.optional, List.lookup_cons, h, beq_eq_false_iff_ne.mpr h]

/-- A text that may be absent is read where it stands. -/
theorem optionalText?_of_lookup {fields : List (String × Json)} {name : String}
    (s : Option String) (h : fields.lookup name = s.map .str) :
  Json.optionalText? fields name = some s
  := by
  rw [Json.optionalText?, h]
  cases s with
  | none => rfl
  | some t => rfl

/-- A position is what is read from its text. -/
theorem RequestPart.ofJson?_text (p : RequestPart) :
  RequestPart.ofJson? (.str p.text) = some p
  := by
  cases p with
  | path | query | header | body => rfl

/-- An argument is what is read from its JSON form. -/
theorem Argument.ofJson?_toJson (a : Argument) :
  Argument.ofJson? a.toJson = some a
  := by
  simp [toJson, ofJson?, Json.record?, Json.requiredText?, Json.requiredFlag?, Json.text?,
    List.lookup_cons, lookup_textMember, optionalText?_of_lookup a.description,
    RequestPart.ofJson?_text]

/-- A tool is what is read from its JSON form. -/
theorem Tool.ofJson?_toJson (t : Tool) :
  Tool.ofJson? t.toJson = some t
  := by
  simp [toJson, ofJson?, Json.record?, Json.requiredText?, Json.listOrEmpty?, Json.text?,
    List.lookup_cons, lookup_textMember, optionalText?_of_lookup t.description,
    optionalText?_of_lookup t.operationId, mapM_map_eq_some Argument.ofJson?_toJson]

/-- A configuration is what is read from its JSON form. -/
theorem ServerConfig.ofJson?_toJson (c : ServerConfig) :
  ServerConfig.ofJson? c.toJson = some c
  := by
  simp [toJson, ofJson?, Json.record?, Json.requiredText?, Json.listOrEmpty?,
    Json.tableOrEmpty?, Json.text?, List.lookup_cons, lookup_textMember,
    optionalText?_of_lookup c.baseUrl, mapM_map_eq_some Tool.ofJson?_toJson]

/-- Configurations are told apart by their JSON forms. -/
theorem ServerConfig.toJson_inj {c d : ServerConfig} (h : c.toJson = d.toJson) :
  c = d
  := by
  apply Option.some.inj
  rw [← c.ofJson?_toJson, ← d.ofJson?_toJson, h]

end ApiIntake
