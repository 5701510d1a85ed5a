import ApiIntake.Http.Service
import ApiIntake.Proofs.Import.Effect
import ApiIntake.Proofs.Text.Utf8

/-!
# Imports by request

A request with a form that can be read to its end, and that has a document in it, is an import of
this document: what is kept afterwards is what the import leaves, and the answer tells how it
ended.  Any other form is refused, and then nothing is called at all (`import_of_form`).

Of several parts with one name the last one counts (`LastPart`), wherever it stands among the
others.
-/

namespace ApiIntake.Http

open ApiIntake.Import (Workbench Ending Local Watched)
open ApiIntake.Store (Catalog StoreFailure)

/-! ### Forms -/

/-- The request asks for an import. -/
structure Request.IsImport (r : Request) : Prop where
  /-- It posts something. -/
  method : r.method = "POST"
  /-- It leads to the imports. -/
  path : Route.ofPath? r.path = some .upload

/-- The parts of the form of a request, if the form is not too long and can be read to its end. -/
def formParts? (maxBytes : Nat) (r : Request) : Option (List Part) :=
  ((r.contentType.bind MediaType.ofText?).bind MediaType.formBoundary?).bind fun boundary =>
    if maxBytes < r.body.length then none
    else
      match Multipart.readParts boundary r.body with
      | (parts, none) => some parts
      | (_, some _) => none

/-- The data of the last part with a name, or nothing if no part has the name. -/
def LastPart (parts : List Part) (name : String) : Option (List UInt8) → Prop
  | some data => ∃ before after, parts = before ++ ⟨some name, data⟩ :: after ∧
      ∀ p ∈ after, p.name ≠ some name
  | none => ∀ p ∈ parts, p.name ≠ some name

/-- The text of the last part with a name, without a byte order mark before it. -/
structure LastText (parts : List Part) (name : String) (text : Option String) : Prop where
  /-- The data is the text. -/
  last : LastPart parts name (text.map Text.utf8)
  /-- There is no byte order mark. -/
  unmarked : ∀ s ∈ text, s.toList.head? ≠ some Text.byteOrderMark

variable {parts : List Part} {name : String} {maxBytes : Nat} {r : Request}

/-- The last part is found from the end. -/
theorem lastData?_of_lastPart {data : Option (List UInt8)} (h : LastPart parts name data) :
  lastData? parts name = data
  := by
  have absent : ∀ {ps : List Part}, (∀ p ∈ ps, p.name ≠ some name) →
      ps.reverse.find? (fun p => p.name = some name) = none := by
    intro ps hps
    rw [List.find?_eq_none]
    intro p hp
    simpa using hps p (List.mem_reverse.mp hp)
  cases data with
  | none => rw [lastData?, absent h, Option.map_none]
  | some data =>
      obtain ⟨before, after, rfl, hafter⟩ := h
      rw [lastData?, List.reverse_append, List.reverse_cons, List.append_assoc,
        List.find?_append, absent hafter]
      simp

/-- A text is read as it is. -/
theorem text_of_lastText {text : Option String} (h : LastText parts name text) :
  (lastData? parts name).map Text.ofBytesLossy = text
  := by
  rw [lastData?_of_lastPart h.last, Option.map_map]
  cases text with
  | none => rfl
  | some s => apply congrArg some (Text.ofBytesLossy_utf8 (h.unmarked s rfl))

/-! ### Answers -/

/-- The member of an answer in JSON. -/
def Response.member? (a : Response) (key : String) : Option Json :=
  match a.body with
  | .json (.obj members) => members.lookup key
  | _ => none

/-- An answer that says that something failed, but not how an import ended. -/
structure Response.Refuses (a : Response) : Prop where
  /-- The status code is that of an error. -/
  status : 400 ≤ a.status
  /-- There is no ending. -/
  kind : a.member? "kind" = none
  /-- There is no configuration. -/
  config : a.member? "config" = none

/-- A broken form is refused. -/
theorem refuses_brokenForm (e : FormError) :
  (brokenForm e).Refuses
  := by
  constructor
  · cases e with
    | tooLarge => decide
    | incomplete => decide
    | badHeaders => decide
    | cutOff name => apply Nat.le_refl
  · rfl
  · rfl

/-- A form that is too long or cannot be read to its end is refused; any other one is read as its
last document and its last texts. -/
theorem readForm_cases (maxBytes : Nat) (r : Request) :
  (formParts? maxBytes r = none ∧
      ∃ answer, readForm maxBytes r = .error answer ∧ answer.Refuses) ∨
    ∃ parts, formParts? maxBytes r = some parts ∧
      readForm maxBytes r =
        match lastData? parts documentPart with
        | none => .error missingFile
        | some document =>
          .ok (document, .ofParts ((lastData? parts tenantPart).map Text.ofBytesLossy)
            ((lastData? parts prefixPart).map Text.ofBytesLossy))
  := by
  rw [formParts?, readForm]
  cases (r.contentType.bind MediaType.ofText?).bind MediaType.formBoundary? with
  | none =>
      left
      exact ⟨rfl, badBoundary, rfl, by decide, rfl, rfl⟩
  | some boundary =>
      dsimp only [Option.bind_some]
      by_cases hl : maxBytes < r.body.length
      · left
        rw [if_pos hl, if_pos hl]
        exact ⟨rfl, _, rfl, refuses_brokenForm _⟩
      · rw [if_neg hl, if_neg hl]
        rcases Multipart.readParts boundary r.body with ⟨parts, _ | e⟩
        · right
          exact ⟨parts, rfl, rfl⟩
        · left
          exact ⟨rfl, _, rfl, refuses_brokenForm e⟩

/-- A form that can be read to its end is read as its last document and its last texts. -/
theorem readForm_of_formParts (h : formParts? maxBytes r = some parts) :
  readForm maxBytes r =
    match lastData? parts documentPart with
    | none => .error missingFile
    | some document =>
      .ok (document, .ofParts ((lastData? parts tenantPart).map Text.ofBytesLossy)
        ((lastData? parts prefixPart).map Text.ofBytesLossy))
  := by
  obtain ⟨hnone, -⟩ | ⟨_, hsome, hread⟩ := readForm_cases maxBytes r
  · rw [h] at hnone
    cases hnone
  · rw [h] at hsome
    cases hsome
    apply hread

/-- Whatever is wrong with a form, it is refused. -/
theorem refuses_of_readForm {answer : Response} (h : readForm maxBytes r = .error answer) :
  answer.Refuses
  := by
  obtain ⟨-, a, ha, hrefuses⟩ | ⟨parts, -, hread⟩ := readForm_cases maxBytes r
  · rw [ha] at h
    cases h
    apply hrefuses
  · rw [hread] at h
    cases hd : lastData? parts documentPart with
    | none =>
        rw [hd] at h
        cases h
        exact ⟨by decide, rfl, rfl⟩
    | some document =>
        rw [hd] at h
        cases h

/-! ### What an answer tells -/

/-- What the answer to an import tells about its ending. -/
structure Tells (answer : Response) (ending : Ending) : Prop where
  /-- Success gives the configuration. -/
  imported : answer.status = 201 ↔ ∃ c, ending = .imported c ∧ answer = .success 201 c
  /-- A name was taken. -/
  conflict : answer.status = 409 ↔ ∃ name, ending = .notStored (.nameTaken name)
  /-- The document was refused. -/
  rejected : answer.status = 400 ∧ answer.member? "kind" = some (.str "rejected") ↔
    ∃ e, ending = .notConverted e
  /-- Anything else failed. -/
  failed : answer.status = 500 ↔
    (∃ e, ending = .notStored e ∧ e.isNameTaken = false) ∨ ∃ c e, ending = .notAnnounced c e
  /-- There is no other status code. -/
  status : answer.status ∈ [201, 409, 400, 500]
  /-- The configuration is that which was stored. -/
  config : answer.member? "config" = ending.stored?.map ServerConfig.toJson

/-- The configuration in the answer to an import is that which was stored. -/
theorem member?_config_endingAnswer (ending : Ending) :
  (endingAnswer ending).member? "config" = ending.stored?.map ServerConfig.toJson
  := by
  cases ending with
  | imported c => rfl
  | notConverted e => rfl
  | notStored e => rfl
  | notAnnounced c e => rfl

/-- The status code of the answer to an import is that of its ending. -/
theorem status_endingAnswer (ending : Ending) :
  (endingAnswer ending).status = endingStatus ending
  := by
  cases ending with
  | imported c => rfl
  | notConverted e => rfl
  | notStored e => rfl
  | notAnnounced c e => rfl

/-- The answer to an import tells how it ended. -/
theorem tells_endingAnswer (ending : Ending) :
  Tells (endingAnswer ending) ending
  := by
  have hkind : ∀ e, (endingAnswer (.notConverted e)).member? "kind" = some (.str "rejected") := by
    intro e
    rfl
  have himported : ∀ c, endingAnswer (.imported c) = .success 201 c := by
    intro c
    rfl
  constructor
  case config => apply member?_config_endingAnswer
  all_goals
    rw [status_endingAnswer]
    cases ending with
    | notStored e => cases e <;> simp [endingStatus, StoreFailure.isNameTaken]
    | _ => simp [endingStatus, himported, hkind]

/-! ### Requests -/

variable {τ σ : Type}

/-- A request to import is answered from its form. -/
theorem respond_of_isImport (hr : r.IsImport) (s : Service τ σ) :
  s.respond r = s.importDocument r
  := by
  have hpost : (!Route.upload.methods.contains r.method) = false := by
    rw [hr.method]
    decide
  have hhead : r.method ≠ "HEAD" := by
    rw [hr.method]
    decide
  funext x
  simp only [Service.respond, hr.path, hpost, Bool.false_eq_true, if_false, Service.route,
    if_neg hhead]
  rfl

/-- If there is nothing to import, nothing is called. -/
theorem respond_of_error {answer : Response} (hr : r.IsImport) {s : Service τ σ}
    (h : readForm s.maxBytes r = .error answer) (x : σ) :
  s.respond r x = (answer, x)
  := by
  rw [respond_of_isImport hr, Service.importDocument, h]
  rfl

/-- A document that was read is imported. -/
theorem respond_of_ok {document : List UInt8} {destination : Destination} (hr : r.IsImport)
    {s : Service τ σ} (h : readForm s.maxBytes r = .ok (document, destination)) (x : σ) :
  s.respond r x =
    (endingAnswer (s.bench.importDocument s.live document destination x).1,
      (s.bench.importDocument s.live document destination x).2)
  := by
  rw [respond_of_isImport hr, Service.importDocument, h]
  rfl

/-- What an answer says of the catalog: the configuration in it, if there is one, is the one that
the catalog has gained. -/
structure Discloses (before : Catalog) (answer : Response) (after : Catalog) : Prop where
  /-- What was gained stands in the answer. -/
  gained : ∀ c, before.Gains c after → answer.member? "config" = some c.toJson
  /-- What stands in the answer was gained. -/
  stored : ∀ j, answer.member? "config" = some j → ∃ c, before.Gains c after ∧ j = c.toJson
  /-- Otherwise the catalog is as it was. -/
  kept : answer.member? "config" = none → after = before

/-- An import that did what its ending says is answered so. -/
theorem discloses_of_effect {s t : Local} {ending : Ending} (h : Local.Effect s ending t) :
  Discloses s.catalog (endingAnswer ending) t.catalog
  := by
  have hconfig := member?_config_endingAnswer ending
  constructor
  · intro c hc
    rw [hconfig, (h.gained c).mpr hc, Option.map_some]
  · intro j hj
    rw [hconfig] at hj
    obtain ⟨c, hc, rfl⟩ := Option.map_eq_some_iff.mp hj
    use c, (h.gained c).mp hc
  · intro hnone
    rw [hconfig, Option.map_eq_none_iff] at hnone
    apply h.kept hnone

/-- A single process that converts in the given way and is watched, as a service. -/
def localService (convert : Destination → List UInt8 → Except ConvertError ServerConfig)
    (maxBytes : Nat) : Service Bool (Watched Local) :=
  ⟨(Local.benchBy convert).watched fun cancelled _ => cancelled, false, maxBytes⟩

/-- The answer of a single process to a request to import tells what the catalog has gained,
whatever has to fail. -/
theorem discloses_respond (hr : r.IsImport)
    (convert : Destination → List UInt8 → Except ConvertError ServerConfig) (maxBytes : Nat)
    {x : Watched Local} (hx : x.inner.Reachable) :
  Discloses x.inner.catalog ((localService convert maxBytes).respond r x).1
    ((localService convert maxBytes).respond r x).2.inner.catalog
  := by
  cases hf : readForm maxBytes r with
  | error answer =>
      rw [respond_of_error (s := localService convert maxBytes) hr hf]
      have hconfig := (refuses_of_readForm hf).config
      constructor
      · intro c hc
        cases Catalog.not_gains_self _ c hc
      · intro j hj
        rw [hconfig] at hj
        cases hj
      · intro _
        rfl
  | ok read =>
      obtain ⟨document, destination⟩ := read
      rw [respond_of_ok (s := localService convert maxBytes) hr hf]
      apply discloses_of_effect
      apply Local.effect_of_course hx
      apply Workbench.course_importDocument

/-! ### Imports -/

/-- A request to import is answered as the import of the last document in its form ends, to the
place that the last texts name, and leaves what the import leaves, over any workbench.  Over the
catalog of a single process, of which any operation may have to fail, an answer carries a
configuration exactly if the catalog has gained it.  A form that cannot be read to its end or has
no document is refused without a call of the workbench and without a word on an ending. -/
theorem import_of_form {r : Request} (hr : r.IsImport) {maxBytes : Nat} :
  (∀ parts document tenant pathPrefix, formParts? maxBytes r = some parts →
      LastPart parts documentPart (some document) → LastText parts tenantPart tenant →
      LastText parts prefixPart pathPrefix →
      ∀ {τ σ : Type} (bench : Workbench τ σ) (live : τ) (s : σ),
        let (ending, t) :=
          bench.importDocument live document (.ofParts tenant pathPrefix) s
        ∃ answer, Service.respond ⟨bench, live, maxBytes⟩ r s = (answer, t) ∧
          Tells answer ending) ∧
    (∀ convert (x : Watched Local), x.inner.Reachable →
      let (answer, y) := (localService convert maxBytes).respond r x
      Discloses x.inner.catalog answer y.inner.catalog) ∧
    ((formParts? maxBytes r = none ∨
        ∃ parts, formParts? maxBytes r = some parts ∧ LastPart parts documentPart none) →
      ∃ answer : Response, answer.Refuses ∧
        ∀ {τ σ : Type} (bench : Workbench τ σ) (live : τ) (s : σ),
          Service.respond ⟨bench, live, maxBytes⟩ r s = (answer, s))
  := by
  refine ⟨?_, ?_, ?_⟩
  · intro parts document tenant pathPrefix hparts hd ht hp τ σ bench live s
    have hread : readForm maxBytes r = .ok (document, .ofParts tenant pathPrefix) := by
      rw [readForm_of_formParts hparts, lastData?_of_lastPart hd, text_of_lastText ht,
        text_of_lastText hp]
    have hanswer := respond_of_ok (s := ⟨bench, live, maxBytes⟩) hr hread s
    exact ⟨_, hanswer, tells_endingAnswer _⟩
  · intro convert x hx
    apply discloses_respond hr convert maxBytes hx
  · intro h
    have hread : ∃ answer, readForm maxBytes r = .error answer := by
      obtain hbroken | ⟨parts, hparts, missing⟩ := h
      · obtain ⟨-, answer, hread, -⟩ | ⟨parts, hparts, -⟩ := readForm_cases maxBytes r
        · use answer
        · rw [hbroken] at hparts
          cases hparts
      · use missingFile
        rw [readForm_of_formParts hparts, lastData?_of_lastPart missing]
    obtain ⟨answer, hread⟩ := hread
    use answer, refuses_of_readForm hread
    intro τ σ bench live s
    apply respond_of_error (s := ⟨bench, live, maxBytes⟩) hr hread

/-- A form with two documents, of which the second counts, and with a part of no meaning. -/
def secondThoughts : Request where
  method := "POST"
  path := "/api/openapi/import"
  contentType := some "multipart/form-data; boundary=b"
  body := Text.utf8
    ("--b\r\nContent-Disposition: form-data; name=\"file\"\r\n\r\nold\r\n" ++
     "--b\r\nContent-Disposition: form-data; name=\"tenantId\"\r\n\r\nacme\r\n" ++
     "--b\r\nContent-Disposition: form-data; name=\"note\"\r\n\r\n\r\n" ++
     "--b\r\nContent-Disposition: form-data; name=\"file\"\r\n\r\nnew\r\n--b--\r\n")

/-- The parts of that form. -/
def secondParts : List Part :=
  [⟨some "file", Text.utf8 "old"⟩, ⟨some "tenantId", Text.utf8 "acme"⟩, ⟨some "note", []⟩,
    ⟨some "file", Text.utf8 "new"⟩]

/-- A converter that takes nothing but the second document, for the tenant that is named. -/
def convertSecond (destination : Destination) (document : List UInt8) :
    Except ConvertError ServerConfig :=
  if destination = .explicit "acme" "" ∧ document = Text.utf8 "new" then .ok bareConfig
  else .error .emptyDocument

/-- The second of two documents is imported, for the tenant that is named between them. -/
theorem import_of_form_secondThoughts :
  secondThoughts.IsImport ∧ formParts? 1000 secondThoughts = some secondParts ∧
    LastPart secondParts documentPart (some (Text.utf8 "new")) ∧
    LastText secondParts tenantPart (some "acme") ∧ LastText secondParts prefixPart none ∧
    ∃ answer t,
      Service.respond ⟨Local.benchBy convertSecond, false, 1000⟩ secondThoughts
        (Local.ofCapacity 1) = (answer, t) ∧
      Tells answer (.imported bareConfig)
  := by
  have hr : secondThoughts.IsImport := ⟨rfl, by decide +kernel⟩
  have hparts : formParts? 1000 secondThoughts = some secondParts := by decide +kernel
  have hd : LastPart secondParts documentPart (some (Text.utf8 "new")) :=
    ⟨secondParts.take 3, [], rfl, by simp⟩
  have ht : LastText secondParts tenantPart (some "acme") := by
    constructor
    · use [⟨some "file", Text.utf8 "old"⟩], [⟨some "note", []⟩, ⟨some "file", Text.utf8 "new"⟩], rfl
      decide
    · decide
  have hp : LastText secondParts prefixPart none := by
    constructor
    · change ∀ p ∈ secondParts, p.name ≠ some prefixPart
      decide
    · decide
  obtain ⟨answer, hanswer, htells⟩ := (import_of_form hr).1 _ _ _ _ hparts hd ht hp
    (Local.benchBy convertSecond) false (Local.ofCapacity 1)
  exact ⟨hr, hparts, hd, ht, hp, answer, _, hanswer, htells⟩

end ApiIntake.Http
