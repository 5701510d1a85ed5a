import ApiIntake.Database.Configs
import ApiIntake.Http.Service
import ApiIntake.Proofs.Conversion.Naming
import ApiIntake.Proofs.Json.Members
import ApiIntake.Proofs.Tool.Slug

/-!
# The name of a converted server

A server is named with words from the title of its document and the first digits of the hash of
the document (`server_named_for_document`).  Such a name is never blank, so that no store refuses
it for that, and it stands for itself in a path.
-/

namespace ApiIntake

open ApiIntake.Http (Route)

/-! ### Percent signs -/

/-- Bytes without percent signs stand for themselves. -/
theorem Text.percentDecode_of_notMem {bytes : List UInt8} (h : '%'.toUInt8 ∉ bytes) :
  Text.percentDecode bytes = bytes
  := by
  induction bytes with
  | nil => rfl
  | cons b rest ih =>
      rw [List.mem_cons, not_or] at h
      rw [Text.percentDecode.eq_def]
      dsimp only
      rw [if_neg (Ne.symm h.1), ih h.2]

/-! ### Segments -/

/-- The segments of a path without a query are the texts between its slashes. -/
theorem segments_of_intercalate (path : String) (segments : List String) (hne : segments ≠ [])
    (hslash : ∀ s ∈ segments, '/' ∉ s.toList) (hquery : '?' ∉ path.toList)
    (h : path.toList = ['/'].intercalate (segments.map String.toList)) :
  ((path.toList.takeWhile (· ≠ '?')).splitOn '/').map String.ofList = segments
  := by
  have hall : path.toList.takeWhile (· ≠ '?') = path.toList := by
    rw [List.takeWhile_eq_self_iff]
    intro c hc
    rw [decide_eq_true_eq]
    rintro rfl
    apply hquery hc
  have hpieces : ∀ l ∈ segments.map String.toList, '/' ∉ l := by
    intro l hl
    obtain ⟨s, hs, rfl⟩ := List.mem_map.mp hl
    apply hslash s hs
  rw [hall, h, List.splitOn_intercalate _ hpieces (by simpa using hne), List.map_map]
  simp

/-! ### Plain names -/

/-- A name of small letters, digits and underscores, and not of underscores alone. -/
structure PlainName (name : String) : Prop where
  /-- There is a character that is no underscore. -/
  word : ∃ c ∈ name.toList, isSmall c = true
  /-- Each character is a small letter, a digit or an underscore. -/
  chars : ∀ c ∈ name.toList, isSmall c = true ∨ c = '_'

/-- The name of a server is plain. -/
theorem plain_nameFromTitle (title : String) (message : List UInt8) :
  PlainName (nameFromTitle title (Digest.sha256Hex message))
  := by
  obtain ⟨ws, shown, hslug, -, hlength, hdigits, hname⟩ := exists_of_nameFromTitle title message
  have hsmall : ∀ c ∈ shown, isSmall c = true := fun c hc => isSmall_of_isHexDigit (hdigits c hc)
  rw [hashDigitsShown] at hlength
  constructor
  · obtain ⟨c, cs, rfl⟩ := List.exists_cons_of_length_pos (l := shown) (by omega)
    use c
    rw [hname]
    simp [hsmall]
  · intro c hc
    rw [hname, List.mem_append, List.mem_cons] at hc
    obtain hc | rfl | hc := hc
    · apply of_mem_underscored hslug.words hc
    · exact .inr rfl
    · exact .inl (hsmall c hc)

namespace PlainName

variable {name : String} {c : Char}

/-- What is no small letter, digit or underscore does not stand in a plain name. -/
theorem notMem (h : PlainName name) (hc : isSmall c = false) (hne : c ≠ '_') :
  c ∉ name.toList
  := by
  intro hmem
  obtain hsmall | rfl := h.chars c hmem
  · rw [hc] at hsmall
    cases hsmall
  · apply hne rfl

/-- A plain name is not blank. -/
theorem isBlank_eq_false (h : PlainName name) :
  Text.isBlank name = false
  := by
  obtain ⟨c, hc, hsmall⟩ := h.word
  rw [Text.isBlank, List.all_eq_false]
  use c, hc
  rw [isBlankChar_of_isSmall hsmall]
  decide

/-- No catalog refuses a configuration for a plain name. -/
theorem refusal?_eq_none {config : ServerConfig} (h : PlainName config.name) :
  Store.refusal? config = none
  := by
  rw [Store.refusal?, h.isBlank_eq_false, if_neg (by decide)]

/-- No table refuses a row for a plain name. -/
theorem refusal?_ne_blankName {row : Database.ConfigRow} (h : PlainName row.name)
    (tables : Database.Tables) :
  tables.refusal? (.config row) ≠ some .blankName
  := by
  obtain ⟨c, hc, hsmall⟩ := h.word
  have hall : ¬ row.name.toList.all (· = ' ') = true := by
    rw [List.all_eq_true]
    intro hspaces
    have heq := of_decide_eq_true (hspaces c hc)
    rw [heq] at hsmall
    cases hsmall
  rw [Database.Tables.refusal?, if_neg hall]
  split
  · decide
  · decide

/-- A plain name stands for itself where it is percent-encoded. -/
theorem decodeName?_eq (h : PlainName name) :
  Route.decodeName? name = some name
  := by
  have hpercent : '%'.toUInt8 ∉ Text.utf8 name :=
    Text.notMem_utf8 (h.notMem (c := '%') (by decide) (by decide)) (by decide)
  rw [Route.decodeName?, Text.percentDecode_of_notMem hpercent, Text.ofUtf8?_utf8]

/-- A plain name is one segment of the path to a configuration, and of the path to its
announcement. -/
theorem ofPath?_eq (h : PlainName name) :
  Route.ofPath? ("/api/configs/" ++ name) = some (.config name) ∧
    Route.ofPath? ("/api/configs/" ++ name ++ "/notify") = some (.notify name)
  := by
  have hslash : '/' ∉ name.toList := h.notMem (by decide) (by decide)
  have hquery : '?' ∉ name.toList := h.notMem (by decide) (by decide)
  have hsome : name.isEmpty = false := by
    obtain ⟨c, hc, -⟩ := h.word
    rw [String.isEmpty_eq_false_iff]
    rintro rfl
    cases hc
  have hconfig := segments_of_intercalate ("/api/configs/" ++ name) ["", "api", "configs", name]
    (by simp) (by simp [hslash]) (by simp [hquery]) (by simp [List.intercalate])
  have hnotify := segments_of_intercalate ("/api/configs/" ++ name ++ "/notify")
    ["", "api", "configs", name, "notify"] (by simp) (by simp [hslash]) (by simp [hquery])
    (by simp [List.intercalate])
  constructor
  · rw [Route.ofPath?, hconfig]
    change (if name.isEmpty then none else some (Route.config name)) = _
    rw [hsome]
    rfl
  · rw [Route.ofPath?, hnotify]
    rfl

end PlainName

/-! ### Converted documents -/

/-- The metadata of a configuration hold the hash of its document. -/
theorem lookup_metadataOf (d : OpenApi.Document) (hash : String) :
  (metadataOf d hash).lookup "specHash" = some (.str ("sha256:" ++ hash))
  := by
  rw [metadataOf]
  apply Json.lookup_of_mem
  · apply (Json.ascending_sortMembers _).nodup
  · apply (Json.mem_sortMembers_iff _).mpr
    · simp
    · cases d.description with
      | none => simp [textMember, Json.optional]
      | some text => simp [textMember, Json.optional]

/-- Whatever the title and the bytes of a document, the name of its server consists of at most 48
characters from the title, which are words of small letters and digits with single underscores
between them, an underscore and the first eight digits of the hash of the bytes.  No cut that
makes it is inside of a character.  The configuration that a document is converted to has this
name, and the same hash in its metadata.  No store refuses it for its name, and the name stands
for itself in the paths of the service. -/
theorem server_named_for_document :
  (∀ title message, ∃ ws shown,
    nameOfBytes? title (Digest.sha256Hex message) =
      some (nameFromTitle title (Digest.sha256Hex message)) ∧
    (nameFromTitle title (Digest.sha256Hex message)).toList = underscored ws ++ '_' :: shown ∧
    SlugOf (titleRuns title) ws ∧ (underscored ws).length ≤ 48 ∧
    shown <+: (Digest.sha256Hex message).toList ∧ shown.length = 8 ∧
    (∀ c ∈ shown, isHexDigit c = true) ∧
    (nameFromTitle title (Digest.sha256Hex message)).length ≤ 57) ∧
  ∀ s destination bytes config, convert s destination bytes = .ok config →
    (∃ d, readDocument bytes = .ok d ∧
      config.name = nameFromTitle (Text.trim d.title) (Digest.sha256Hex bytes)) ∧
    config.metadata.lookup "specHash" = some (.str ("sha256:" ++ Digest.sha256Hex bytes)) ∧
    Store.refusal? config = none ∧
    (∀ tables : Database.Tables, tables.refusal? (.config (.ofConfig config)) ≠ some .blankName) ∧
    Route.ofPath? ("/api/configs/" ++ config.name) = some (.config config.name) ∧
    Route.ofPath? ("/api/configs/" ++ config.name ++ "/notify") = some (.notify config.name) ∧
    Route.decodeName? config.name = some config.name
  := by
  constructor
  · intro title message
    obtain ⟨ws, shown, hslug, hshown, hlength, hdigits, hname⟩ :=
      exists_of_nameFromTitle title message
    have hle := hslug.length_le
    rw [slugBound] at hle
    use ws, shown, nameOfBytes?_sha256Hex title message, hname, hslug, hle, hshown, hlength, hdigits
    rw [← String.length_toList, hname, List.length_append, List.length_cons, hlength,
      hashDigitsShown]
    omega
  · intro s destination bytes config h
    obtain ⟨d, hd, hdocument⟩ := bind_eq_ok_iff.mp h
    obtain ⟨drafts, -, heq⟩ := of_convertDocument hdocument
    have hname : config.name = nameFromTitle (Text.trim d.title) (Digest.sha256Hex bytes) := by
      rw [heq, configWith]
    have hmetadata : config.metadata = metadataOf d (Digest.sha256Hex bytes) := by
      rw [heq, configWith]
    have hplain : PlainName config.name := by
      rw [hname]
      apply plain_nameFromTitle
    obtain ⟨hconfig, hnotify⟩ := hplain.ofPath?_eq
    rw [hmetadata]
    exact ⟨⟨d, hd, hname⟩, lookup_metadataOf d _, hplain.refusal?_eq_none,
      hplain.refusal?_ne_blankName, hconfig, hnotify, hplain.decodeName?_eq⟩

/-- The document with four operations is converted to a configuration that no store refuses for
its name. -/
theorem server_named_for_echoes :
  ∃ config, convert .standard .byConvention echoDocument = .ok config ∧
    Store.refusal? config = none ∧
    Route.ofPath? ("/api/configs/" ++ config.name) = some (.config config.name)
  := by
  obtain ⟨config, -, hconfig, -⟩ := names_of_echoDocument
  obtain ⟨-, hall⟩ := server_named_for_document
  obtain ⟨-, -, hrefusal, -, hpath, -⟩ := hall .standard .byConvention echoDocument config hconfig
  use config, hconfig, hrefusal

/-- Underscores that are left at the end by a cut are dropped as well. -/
example : titleSlug "A title that goes on and on for forty and seven-chars" =
    "a_title_that_goes_on_and_on_for_forty_and_seven" := by
  decide +kernel

end ApiIntake
