import ApiIntake.Proofs.Conversion.Listing
import ApiIntake.Proofs.Conversion.Reading
import ApiIntake.Proofs.Tool.Naming

/-!
# The names of the tools of a document

The tools of a converted document have the names that the bases of the selected operations get
one behind the other, so that each tool is found by its name (`tools_found_by_name`).  An
operation gives its tool its base as the name, unless an earlier tool has that name.  This need
not come of an earlier operation with the same base: it can also be a base with a number behind
it (`name_of_base`).  A base that is made of a method and a path keeps to a bound, but the number
behind it may go beyond (`length_of_unnamed`).
-/

namespace ApiIntake

open ApiIntake.OpenApi

/-- The bases of the selected operations of a document. -/
def basesOf (s : Settings) (d : Document) : List String :=
  (offersOf ⟨d.root⟩ s.discovery d.paths).map Offer.base

section

variable {s : Settings} {destination : Destination} {bytes : List UInt8} {c : ServerConfig}
  {d : Document} {t : Tool} {taken : List String} {drafts : List Tool}

/-! ### Names of tools -/

/-- Tools get the names that their names get as bases. -/
theorem map_name_named (taken : List String) (drafts : List Tool) :
  (named taken drafts).map (·.name) = freeNames taken (drafts.map (·.name))
  := by
  induction drafts generalizing taken with
  | nil => rfl
  | cons t rest ih =>
      rw [named, List.map_cons, ih, List.map_cons, freeNames]
      rfl

/-- What is the same of every draft and its operation, and does not hang on names, is the same of
the tools of a converted document and its selected operations. -/
theorem map_tools_of_convert {β : Type} {f : Tool → β} {g : Offer → β}
    (hf : ∀ r o t, Offer.draft r o = .ok t → f t = g o)
    (hname : ∀ t name, f (t.renamed name) = f t) (h : convert s destination bytes = .ok c)
    (hd : readDocument bytes = .ok d) :
  c.tools.map f = (offersOf ⟨d.root⟩ s.discovery d.paths).map g
  := by
  rw [convert_of_ok hd] at h
  obtain ⟨drafts, hdrafts, rfl⟩ := of_convertDocument h
  change (named [] drafts).map f = _
  rw [map_named hname]
  apply map_drafts (hf ⟨d.root⟩) hdrafts

/-- A draft keeps the name that the document gives its operation. -/
theorem operationId_of_draft {r : RefScope} {o : Offer} (h : o.draft r = .ok t) :
  t.operationId = o.op.operationId
  := by
  rw [Offer.draft, toolOf] at h
  obtain ⟨args, -, h⟩ := bind_eq_ok_iff.mp h
  cases h
  rfl

/-- The tools of a converted document are those of its selected operations, with the names that
the bases of these get. -/
theorem names_of_convert (h : convert s destination bytes = .ok c) :
  ∃ d, readDocument bytes = .ok d ∧
    c.tools.map (·.name) = freeNames [] (basesOf s d) ∧
    c.tools.map Tool.call = (offersOf ⟨d.root⟩ s.discovery d.paths).map Offer.call
  := by
  obtain ⟨d, hd, hdocument⟩ := bind_eq_ok_iff.mp h
  use d, hd
  constructor
  · obtain ⟨drafts, hdrafts, rfl⟩ := of_convertDocument hdocument
    rw [basesOf, ← map_drafts (fun o t ht => (of_draft ht).1) hdrafts]
    apply map_name_named
  · apply map_tools_of_convert _ (fun t name => rfl) h hd
    intro r o t ht
    obtain ⟨-, hm, hp⟩ := of_draft ht
    rw [Tool.call, hm, hp]
    rfl

/-- Of tools with different names each is the first one with its name. -/
theorem find?_name {tools : List Tool} (h : (tools.map (·.name)).Nodup) (ht : t ∈ tools) :
  tools.find? (fun u => u.name = t.name) = some t
  := by
  induction tools with
  | nil => cases ht
  | cons u rest ih =>
      rw [List.map_cons, List.nodup_cons] at h
      obtain ⟨hu, hrest⟩ := h
      obtain rfl | ht := List.mem_cons.mp ht
      · apply List.find?_cons_of_pos
        apply decide_eq_true rfl
      · have hne : u.name ≠ t.name := by
          intro heq
          apply hu
          rw [heq]
          apply List.mem_map_of_mem ht
        rw [List.find?_cons_of_neg (by simpa using hne)]
        apply ih hrest ht

/-- Bases get names one behind the other, one for each of them and all of them different: itself
if it is no earlier name, and else with the least number behind it that makes no earlier name.
The names of bases are the same whatever bases come behind them.  The tools of a converted
document have the names of its bases, and each of them is what is found by its name. -/
theorem tools_found_by_name :
  (∀ bases : List String,
    (freeNames [] bases).length = bases.length ∧
    (freeNames [] bases).Nodup ∧
    (∀ i base, bases[i]? = some base →
      ∃ name, (freeNames [] bases)[i]? = some name ∧
        Gets ((freeNames [] bases).take i) base name) ∧
    ∀ more, freeNames [] bases <+: freeNames [] (bases ++ more)) ∧
  ∀ s destination bytes c, convert s destination bytes = .ok c →
    (∃ d, readDocument bytes = .ok d ∧ c.tools.map (·.name) = freeNames [] (basesOf s d)) ∧
    (c.tools.map (·.name)).Nodup ∧
    ∀ t ∈ c.tools, c.tool? t.name = some t
  := by
  constructor
  · intro bases
    use length_freeNames [] bases, nodup_freeNames bases
    constructor
    · intro i base hi
      apply gets_getElem? hi
    · intro more
      rw [freeNames_append]
      apply List.prefix_append
  · intro s destination bytes c h
    obtain ⟨d, hd, hnames, -⟩ := names_of_convert h
    have hnodup : (c.tools.map (·.name)).Nodup := by
      rw [hnames]
      apply nodup_freeNames
    use ⟨d, hd, hnames⟩, hnodup
    intro t ht
    apply find?_name hnodup ht

end

/-- A document with four operations on a path.  The first two have one name, and the third has
that name with a number behind it. -/
def echoDocument : List UInt8 :=
  ("\x7b\"openapi\":\"3.0\",\"info\":\x7b\"title\":\"T\",\"version\":\"1\"\x7d,\"paths\":" ++
    "\x7b\"/a\":\x7b\"get\":\x7b\"operationId\":\"a\",\"responses\":\x7b\x7d\x7d," ++
    "\"put\":\x7b\"operationId\":\"a\",\"responses\":\x7b\x7d\x7d," ++
    "\"post\":\x7b\"operationId\":\"a_1\",\"responses\":\x7b\x7d\x7d," ++
    "\"delete\":\x7b\"operationId\":\"d\",\"responses\":\x7b\x7d\x7d\x7d\x7d\x7d").toUTF8.toList

set_option maxRecDepth 10000 in
/-- The operations have the names that the document gives them as their bases, and the second
and the third tool have names with numbers behind them. -/
theorem names_of_echoDocument :
  ∃ c d, convert .standard .byConvention echoDocument = .ok c ∧
    readDocument echoDocument = .ok d ∧
    basesOf .standard d = ["a", "a", "a_1", "d"] ∧
    c.tools.map (·.name) = ["a", "a_1", "a_1_1", "d"]
  := by
  -- both at once, since most of the work is to read the document
  have hboth : (readDocument echoDocument >>= fun d =>
      (convertDocument .standard .byConvention d (Digest.sha256Hex echoDocument)).map fun c =>
        (basesOf .standard d, c.tools.map (·.name))) =
      .ok (["a", "a", "a_1", "d"], ["a", "a_1", "a_1_1", "d"]) := by
    decide +kernel
  obtain ⟨d, hd, h⟩ := bind_eq_ok_iff.mp hboth
  obtain ⟨c, hc, h⟩ := map_eq_ok_iff.mp h
  obtain ⟨hbases, hnames⟩ := Prod.mk.inj h
  use c, d, (convert_of_ok hd).trans hc, hd, hbases, hnames

/-- The third base gets its name behind the names of the first two, and the tools of the
document are found by their names. -/
theorem tools_found_by_name_echoes :
  (∃ name, (freeNames [] ["a", "a", "a_1", "d"])[2]? = some name ∧
      Gets ((freeNames [] ["a", "a", "a_1", "d"]).take 2) "a_1" name) ∧
    ∃ c, convert .standard .byConvention echoDocument = .ok c ∧
      c.tools.map (·.name) = ["a", "a_1", "a_1_1", "d"] ∧
      (c.tools.map (·.name)).Nodup ∧
      ∀ t ∈ c.tools, c.tool? t.name = some t
  := by
  obtain ⟨hbases, htools⟩ := tools_found_by_name
  constructor
  · apply (hbases ["a", "a", "a_1", "d"]).2.2.1 2 "a_1" rfl
  · obtain ⟨c, -, hc, -, -, hnames⟩ := names_of_echoDocument
    obtain ⟨-, hnodup, hfound⟩ := htools .standard .byConvention echoDocument c hc
    use c, hc, hnames, hnodup

/-! ### Bases that are kept -/

/-- Each selected operation of a converted document has its tool, in the same place.  The tool
has the base of the operation as its name, if no earlier tool has this name.  If the base is
none of the bases of earlier operations with a number behind it, then this is so unless one of
them has the same base. -/
theorem name_of_base {s : Settings} {destination : Destination} {bytes : List UInt8}
    {c : ServerConfig} (h : convert s destination bytes = .ok c) :
  ∃ d, readDocument bytes = .ok d ∧
    c.tools.map Tool.call = (offersOf ⟨d.root⟩ s.discovery d.paths).map Offer.call ∧
    ∀ i base, (basesOf s d)[i]? = some base →
      ∃ t, c.tools[i]? = some t ∧
        (t.name = base ∨ ∃ k, 1 ≤ k ∧ t.name = numbered base k) ∧
        (t.name = base ↔ base ∉ (c.tools.take i).map (·.name)) ∧
        ((∀ other ∈ (basesOf s d).take i, ∀ k, 1 ≤ k → base ≠ numbered other k) →
          (t.name = base ↔ base ∉ (basesOf s d).take i))
  := by
  obtain ⟨d, hd, hnames, hcalls⟩ := names_of_convert h
  use d, hd, hcalls
  intro i base hi
  obtain ⟨name, hname, hgets⟩ := gets_getElem? hi
  rw [← hnames, List.getElem?_map] at hname
  obtain ⟨t, ht, rfl⟩ := Option.map_eq_some_iff.mp hname
  use t, ht, hgets.eq_or_exists
  rw [hgets.eq_base_iff, List.nil_append, List.map_take, hnames]
  constructor
  · rfl
  · intro hother
    rw [take_freeNames, mem_freeNames_iff hother]

/-- The fourth tool has the base of its operation as its name. -/
theorem name_of_base_behind_echoes :
  ∃ c t, convert .standard .byConvention echoDocument = .ok c ∧ c.tools[3]? = some t ∧
    t.name = "d"
  := by
  obtain ⟨c, d', hc, hd', hbases', -⟩ := names_of_echoDocument
  obtain ⟨d, hd, -, hbases⟩ := name_of_base hc
  rw [hd] at hd'
  cases hd'
  rw [hbases'] at hbases
  obtain ⟨t, ht, -, -, hname⟩ := hbases 3 "d" rfl
  use c, t, hc, ht
  apply (hname _).mpr
  · decide
  · intro other hother k _ hd
    have hchars := congrArg String.toList hd
    rw [numbered, String.toList_append, String.toList_append] at hchars
    have ha : other = "a" ∨ other = "a_1" := by simpa using hother
    obtain rfl | rfl := ha
    · cases hchars
    · cases hchars

/-- The third operation has a base that no other operation has, and still its tool has another
name. -/
theorem renamed_without_echo :
  ∃ c d, convert .standard .byConvention echoDocument = .ok c ∧
    readDocument echoDocument = .ok d ∧
    (basesOf .standard d)[2]? = some "a_1" ∧
    (basesOf .standard d).count "a_1" = 1 ∧
    (c.tools.map (·.name))[2]? = some "a_1_1"
  := by
  obtain ⟨c, d, hc, hd, hbases, hnames⟩ := names_of_echoDocument
  use c, d, hc, hd
  rw [hnames, hbases]
  decide

/-! ### Lengths of names -/

/-- A tool for an operation to which the document gives no name has the name made of its method
and path as its base, which keeps to the bound.  The name is the base itself, unless an earlier
tool has this name.  Else the least number that makes it new stands behind it, which is none
greater than the number of earlier tools.  So a name goes beyond the bound by no more than an
underscore and as many digits as that number has. -/
theorem length_of_unnamed {s : Settings} {destination : Destination} {bytes : List UInt8}
    {c : ServerConfig} (h : convert s destination bytes = .ok c) :
  ∃ d, readDocument bytes = .ok d ∧
    ∀ i t, c.tools[i]? = some t → t.operationId = none →
      ∃ o, (offersOf ⟨d.root⟩ s.discovery d.paths)[i]? = some o ∧ o.call = t.call ∧
        o.op.operationId = none ∧
        (nameFromPath o.method o.path).length ≤ toolNameBound ∧
        Gets ((c.tools.take i).map (·.name)) (nameFromPath o.method o.path) t.name ∧
        (nameFromPath o.method o.path ∉ (c.tools.take i).map (·.name) →
          t.name.length ≤ toolNameBound) ∧
        ∀ digits, 0 < digits → i < 10 ^ digits → t.name.length ≤ toolNameBound + 1 + digits
  := by
  obtain ⟨d, hd, hnames, hcalls⟩ := names_of_convert h
  have hids : c.tools.map Tool.operationId =
      (offersOf ⟨d.root⟩ s.discovery d.paths).map (·.op.operationId) := by
    apply map_tools_of_convert _ (fun t name => rfl) h hd
    intro r o t ht
    apply operationId_of_draft ht
  use d, hd
  intro i t ht hunnamed
  -- the operation in the same place has the same call and no name either
  have hid : (c.tools.map Tool.operationId)[i]? = some none := by
    rw [List.getElem?_map, ht, Option.map_some, hunnamed]
  have hcall : (c.tools.map Tool.call)[i]? = some t.call := by
    rw [List.getElem?_map, ht, Option.map_some]
  rw [hids, List.getElem?_map] at hid
  obtain ⟨o, ho, hoid⟩ := Option.map_eq_some_iff.mp hid
  rw [hcalls, List.getElem?_map, ho, Option.map_some] at hcall
  have hbase : (basesOf s d)[i]? = some (nameFromPath o.method o.path) := by
    rw [basesOf, List.getElem?_map, ho, Option.map_some, Offer.base, baseName, hoid,
      Option.getD_none]
  obtain ⟨name, hname, hgets⟩ := gets_getElem? hbase
  rw [← hnames, List.getElem?_map, ht, Option.map_some] at hname
  rw [List.nil_append, ← hnames, ← List.map_take] at hgets
  cases hname
  have hbound := length_nameFromPath_le o.method o.path
  use o, ho, Option.some.inj hcall, hoid, hbound, hgets
  constructor
  · intro hnew
    rw [hgets.eq_base_iff.mpr hnew]
    apply hbound
  · intro digits hpos hi
    have hearlier : ((c.tools.take i).map (·.name)).length < 10 ^ digits := by
      rw [List.length_map]
      apply Nat.lt_of_le_of_lt (List.length_take_le i c.tools) hi
    have hle := hgets.length_le hpos hearlier
    omega

/-- The text of a document with two paths, the second one of which is longer by a letter that its
name has no room for. -/
def longText : List Char :=
  let path := '/' :: List.replicate 60 'a'
  "\x7bopenapi: '3.', info: \x7btitle: T, version: v\x7d, paths: \x7b".toList ++ path ++
    ": \x7bget: \x7bresponses: \x7b\x7d\x7d\x7d, ".toList ++ path ++
    "b: \x7bget: \x7bresponses: \x7b\x7d\x7d\x7d\x7d\x7d".toList

/-- The name made of either of these paths. -/
def longName : List Char := "get_".toList ++ List.replicate 60 'a'

/-- The names that the document gives the operations of tools, and their bases. -/
def namesGiven (d : Document) (tools : List Tool) : List (Option String) × List (List Char) :=
  (tools.map (·.operationId), (basesOf .standard d).map (·.toList))

set_option maxRecDepth 10000 in
/-- The operations of both paths have no names of their own, and one base. -/
theorem bases_of_longText :
  (readText longText >>= fun d =>
    (convertDocument .standard .byConvention d "").map fun c => namesGiven d c.tools) =
    .ok ([none, none], [longName, longName])
  := by
  decide +kernel

/-- The document is converted, and its second tool has a name of 66 characters. -/
theorem exists_of_longText :
  ∃ c t, convert .standard .byConvention (Text.utf8 (String.ofList longText)) = .ok c ∧
    c.tools[1]? = some t ∧ t.operationId = none ∧ t.name.length = 66
  := by
  have hfirst : longText.head? = some '\x7b' := by decide +kernel
  obtain ⟨d, c, hd, hc, hfacts⟩ := exists_of_readText hfirst (by decide) bases_of_longText
  obtain ⟨hids, hbases⟩ := Prod.mk.inj hfacts
  have hbases : basesOf .standard d = [String.ofList longName, String.ofList longName] := by
    simpa using congrArg (List.map String.ofList) hbases
  -- so the second base is taken, and gets a number
  have hnames : c.tools.map (·.name) =
      [String.ofList longName, numbered (String.ofList longName) 1] := by
    obtain ⟨d', hd', hnames, -⟩ := names_of_convert hc
    rw [hd] at hd'
    cases hd'
    rw [hnames, hbases]
    apply freeNames_pair
  have hid : (c.tools.map (·.operationId))[1]? = some none := by
    rw [hids]
    rfl
  have hname : (c.tools.map (·.name))[1]? = some (numbered (String.ofList longName) 1) := by
    rw [hnames]
    rfl
  rw [List.getElem?_map] at hid hname
  obtain ⟨t, ht, hid⟩ := Option.map_eq_some_iff.mp hid
  rw [ht, Option.map_some, Option.some.injEq] at hname
  use c, t, hc, ht, hid
  rw [hname, length_numbered, String.length_ofList]
  decide

/-- The second tool of the document has a name beyond the bound, although the document gives none
to the operation. -/
theorem name_beyond_bound :
  ∃ c t, convert .standard .byConvention (Text.utf8 (String.ofList longText)) = .ok c ∧
    t ∈ c.tools ∧ t.operationId = none ∧ toolNameBound < t.name.length
  := by
  obtain ⟨c, t, hc, ht, hid, hlength⟩ := exists_of_longText
  use c, t, hc, List.mem_of_getElem? ht, hid
  rw [hlength]
  decide

/-- The second tool of the document has a name that goes beyond the bound by an underscore and a
digit at most. -/
theorem length_of_unnamed_long :
  ∃ c t, convert .standard .byConvention (Text.utf8 (String.ofList longText)) = .ok c ∧
    c.tools[1]? = some t ∧ t.operationId = none ∧ t.name.length ≤ toolNameBound + 1 + 1
  := by
  obtain ⟨c, t, hc, ht, hid, -⟩ := exists_of_longText
  obtain ⟨_, -, hall⟩ := length_of_unnamed hc
  obtain ⟨o, -, -, -, -, -, -, hlength⟩ := hall 1 t ht hid
  use c, t, hc, ht, hid
  apply hlength 1 (by decide) (by decide)

end ApiIntake
