import ApiIntake.Proofs.Json.Apart
import ApiIntake.Proofs.Store.Catalog
import ApiIntake.Proofs.Text.Utf8
import ApiIntake.Proofs.Tool.JsonForm

/-!
# What a hash covers

The hash of a configuration is taken of its content text.  Configurations without
floating-point numbers have the same content text only if they are the same
(`ServerConfig.content_is_all`), so that no part of a configuration is left out.
-/

namespace ApiIntake

/-- Whether a tool holds no floating-point number. -/
def Tool.isFloatFree (t : Tool) : Bool :=
  t.inputSchema.isFloatFree && t.args.all fun a => a.schema.isFloatFree

/-- Whether a configuration holds no floating-point number. -/
def ServerConfig.isFloatFree (c : ServerConfig) : Bool :=
  Json.floatFreeMembers c.metadata && c.tools.all Tool.isFloatFree

namespace Json

/-- Members behind others hold no floating-point number if neither do. -/
theorem floatFreeMembers_append (ms ns : List (String × Json)) :
  floatFreeMembers (ms ++ ns) = (floatFreeMembers ms && floatFreeMembers ns)
  := by
  induction ms with
  | nil => rfl
  | cons m ms ih => rw [List.cons_append, floatFreeMembers, ih, floatFreeMembers, Bool.and_assoc]

/-- A text that may be absent is no floating-point number. -/
theorem floatFreeMembers_textMember (key : String) (s : Option String) :
  floatFreeMembers (textMember key s) = true
  := by
  cases s with
  | none => rfl
  | some t => rfl

/-- A list holds no floating-point number if none of what it is made of does. -/
theorem floatFreeItems_map {α : Type} {write : α → Json} {free : α → Bool}
    (h : ∀ a, (write a).isFloatFree = free a) (l : List α) :
  floatFreeItems (l.map write) = l.all free
  := by
  induction l with
  | nil => rfl
  | cons a l ih => rw [List.map_cons, floatFreeItems, h, ih, List.all_cons]

end Json

/-- The JSON form of an argument holds the floating-point numbers of its schema. -/
theorem Argument.isFloatFree_toJson (a : Argument) :
  a.toJson.isFloatFree = a.schema.isFloatFree
  := by
  simp [toJson, Json.isFloatFree, Json.floatFreeMembers_append, Json.floatFreeMembers,
    Json.floatFreeMembers_textMember]

/-- The JSON form of a tool holds its floating-point numbers. -/
theorem Tool.isFloatFree_toJson (t : Tool) :
  t.toJson.isFloatFree = t.isFloatFree
  := by
  simp [toJson, isFloatFree, Json.isFloatFree, Json.floatFreeMembers_append,
    Json.floatFreeMembers, Json.floatFreeMembers_textMember,
    Json.floatFreeItems_map Argument.isFloatFree_toJson, Bool.and_comm]

/-- The JSON form of a configuration holds its floating-point numbers. -/
theorem ServerConfig.isFloatFree_toJson (c : ServerConfig) :
  c.toJson.isFloatFree = c.isFloatFree
  := by
  simp [toJson, isFloatFree, Json.isFloatFree, Json.floatFreeMembers_append,
    Json.floatFreeMembers, Json.floatFreeMembers_textMember,
    Json.floatFreeItems_map Tool.isFloatFree_toJson, Bool.and_comm]

/-- A configuration is what is read from its JSON form, and its hash is that of the bytes of its
content text.  Two configurations without floating-point numbers have the same bytes exactly if
they are the same. -/
theorem ServerConfig.content_is_all (c d : ServerConfig) :
  ServerConfig.ofJson? c.toJson = some c ∧
  c.digest = taggedHash (Text.utf8 c.contentText) ∧
  (c.isFloatFree = true → d.isFloatFree = true →
    (Text.utf8 c.contentText = Text.utf8 d.contentText ↔ c = d))
  := by
  use c.ofJson?_toJson, rfl
  intro hc hd
  rw [← isFloatFree_toJson] at hc hd
  constructor
  · intro same
    apply toJson_inj
    apply Json.compact_inj hc hd (Text.utf8_inj same)
  · rintro rfl
    rfl

/-- A configuration with a tenant and a prefix. -/
def plainConfig : ServerConfig := { bareConfig with tenant := "a", pathPrefix := "b" }

/-- A configuration whose tenant looks like the other tenant and its prefix in a text. -/
def trickyConfig : ServerConfig := { bareConfig with tenant := "a\",\"prefix\":\"b" }

/-- The tenant of the one configuration does not pass for the tenant and the prefix of the
other. -/
theorem contentText_plainConfig_ne :
  plainConfig.isFloatFree = true ∧ trickyConfig.isFloatFree = true ∧
    Text.utf8 plainConfig.contentText ≠ Text.utf8 trickyConfig.contentText
  := by
  use rfl, rfl
  intro same
  have heq := ((plainConfig.content_is_all trickyConfig).2.2 rfl rfl).mp same
  have htenant := congrArg ServerConfig.tenant heq
  revert htenant
  decide

end ApiIntake
