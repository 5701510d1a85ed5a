import ApiIntake.Conversion
import ApiIntake.Proofs.Outcome
import ApiIntake.Proofs.Text.Utf8

/-!
# Documents from texts

The bytes of a document are those of a text, and nothing but the text decides what document they
hold (`readDocument_utf8`) and what tools are made of it (`exists_of_readText`), or with which
error it is refused (`convert_eq_error_of_readText`).
-/

namespace ApiIntake

open ApiIntake.OpenApi
open ApiIntake.Yaml (Value)

/-- The document that a text holds. -/
def readText (text : List Char) : Except ConvertError Document := do
  let root ←
    match Value.ofText text with
    | .ok v => v.check.mapError .unreadable |>.map fun _ => v
    | .error f => .error (.unreadable f)
  match root with
  | .map _ =>
    checkVersion root
    match Document.decode? .settled root with
    | some d => .ok d
    | none => .error (.unreadable .badForm)
  | _ => .error (.invalid .rootNotMapping)

section

variable {s : Settings} {destination : Destination} {first : Char} {text : List Char}

/-- A document is read from the text of its bytes, if this does not begin with a blank. -/
theorem readDocument_utf8 (hfirst : text.head? = some first)
    (h : (String.utf8EncodeChar first).all isAsciiBlank = false) :
  readDocument (Text.utf8 (String.ofList text)) = readText text
  := by
  have hblank : (Text.utf8 (String.ofList text)).all isAsciiBlank = false := by
    obtain ⟨rest, rfl⟩ := List.head?_eq_some_iff.mp hfirst
    rw [Text.utf8, String.toList_ofList, List.flatMap_cons, List.all_append, h, Bool.false_and]
  rw [readDocument, hblank, Text.ofUtf8?_utf8]
  change readText (String.ofList text).toList = _
  rw [String.toList_ofList]

/-- The tools for a document do not hang on the hash of its bytes. -/
theorem map_tools_convertDocument (s : Settings) (destination : Destination) (d : Document)
    (hash hash' : String) :
  (convertDocument s destination d hash).map (·.tools) =
    (convertDocument s destination d hash').map (·.tools)
  := by
  rw [convertDocument, convertDocument]
  split
  · rfl
  split
  · rfl
  -- nothing else holds the hash than the name and the metadata
  generalize nameFromTitle (Text.trim d.title) hash = name
  generalize nameFromTitle (Text.trim d.title) hash' = name'
  generalize metadataOf d hash = metadata
  generalize metadataOf d hash' = metadata'
  cases toolsOfPaths ⟨d.root⟩ s.discovery [] d.paths with
  | error e => rfl
  | ok tools =>
      simp only [bind, Except.bind]
      split
      · rfl
      · rfl

/-- What is known of the document and the tools that come of a text is known of the document
and the tools that come of its bytes. -/
theorem exists_of_readText {β : Type} {f : Document → List Tool → β} {b : β}
    (hfirst : text.head? = some first) (hc : (String.utf8EncodeChar first).all isAsciiBlank = false)
    (h : (readText text >>= fun d =>
      (convertDocument s destination d "").map fun c => f d c.tools) = .ok b) :
  ∃ d c, readDocument (Text.utf8 (String.ofList text)) = .ok d ∧
    convert s destination (Text.utf8 (String.ofList text)) = .ok c ∧ f d c.tools = b
  := by
  obtain ⟨d, hd, h⟩ := bind_eq_ok_iff.mp h
  obtain ⟨c, hconfig, hb⟩ := map_eq_ok_iff.mp h
  rw [← readDocument_utf8 hfirst hc] at hd
  have htools := map_tools_convertDocument s destination d ""
    (Digest.sha256Hex (Text.utf8 (String.ofList text)))
  rw [hconfig] at htools
  obtain ⟨c', hconfig', htools⟩ := map_eq_ok_iff.mp htools.symm
  rw [← convert_of_ok hd] at hconfig'
  use d, c', hd, hconfig'
  rw [htools, hb]

/-- The error that comes of a text comes of its bytes. -/
theorem convert_eq_error_of_readText {e : ConvertError} (hfirst : text.head? = some first)
    (hc : (String.utf8EncodeChar first).all isAsciiBlank = false)
    (h : (readText text >>= fun d =>
      (convertDocument s destination d "").map fun c => c.tools.length) = .error e) :
  convert s destination (Text.utf8 (String.ofList text)) = .error e
  := by
  have hread := readDocument_utf8 hfirst hc
  obtain ht | ⟨d, ht, h⟩ := bind_eq_error_iff.mp h
  · rw [ht] at hread
    apply convert_of_error hread
  · rw [ht] at hread
    have htools := map_tools_convertDocument s destination d ""
      (Digest.sha256Hex (Text.utf8 (String.ofList text)))
    rw [map_eq_error_iff.mp h] at htools
    rw [convert_of_ok hread]
    apply map_eq_error_iff.mp htools.symm

end

/-- The operation on a path of a document, with its path item. -/
def getOn? (d : Document) (path : String) : Option (PathItem × Operation) :=
  match d.paths.lookup path with
  | some (.inline item) => (item.operation .get).map fun op => (item, op)
  | _ => none

/-- The operation is one of a path item of the path. -/
theorem of_getOn? {d : Document} {path : String} {item : PathItem} {op : Operation}
    (h : getOn? d path = some (item, op)) :
  (path, .inline item) ∈ d.paths ∧ item.operation .get = some op
  := by
  rw [getOn?] at h
  split at h
  case h_1 found hlookup =>
    obtain ⟨op', hop, heq⟩ := Option.map_eq_some_iff.mp h
    cases heq
    obtain ⟨l₁, l₂, hpaths, -⟩ := List.lookup_eq_some_iff.mp hlookup
    rw [hpaths]
    exact ⟨List.mem_append_right _ List.mem_cons_self, hop⟩
  case h_2 => cases h

end ApiIntake
