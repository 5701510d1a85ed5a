import ApiIntake.Digest.Sha256
import ApiIntake.Proofs.Text.Utf8
import ApiIntake.Proofs.Tool.Words
import ApiIntake.Text.Blank

/-!
# Names of servers

The part of a server name that is made from a title consists of words of small letters and digits
with single underscores between them (`exists_slugOf`).  These are the runs of the title in small
letters, as far as there is room for them.  Cutting them behind bytes is cutting them behind
characters (`nameOfBytes?_sha256Hex`), since no character of them has more than one byte.
-/

namespace ApiIntake

variable {c : Char} {ws : List (List Char)} {title hash : String} {message : List UInt8}

/-! ### Characters -/

/-- Whether a character is a small ASCII letter or a digit. -/
def isSmall (c : Char) : Bool := c.isLower || c.isDigit

/-- The capital letters by number. -/
theorem isUpper_iff :
  c.isUpper = true ↔ 65 ≤ c.toNat ∧ c.toNat ≤ 90
  := by
  change decide ('A'.val ≤ c.val ∧ c.val ≤ 'Z'.val) = true ↔ _
  rw [decide_eq_true_eq, UInt32.le_iff_toNat_le, UInt32.le_iff_toNat_le]
  rfl

/-- The small letters by number. -/
theorem isLower_iff :
  c.isLower = true ↔ 97 ≤ c.toNat ∧ c.toNat ≤ 122
  := by
  change (decide ('a'.val ≤ c.val) && decide (c.val ≤ 'z'.val)) = true ↔ _
  simp only [Bool.and_eq_true, decide_eq_true_eq, UInt32.le_iff_toNat_le]
  rfl

/-- The digits by number. -/
theorem isDigit_iff :
  c.isDigit = true ↔ 48 ≤ c.toNat ∧ c.toNat ≤ 57
  := by
  change (decide ('0'.val ≤ c.val) && decide (c.val ≤ '9'.val)) = true ↔ _
  simp only [Bool.and_eq_true, decide_eq_true_eq, UInt32.le_iff_toNat_le]
  rfl

/-- A letter or digit is a capital letter or a small letter or digit. -/
theorem isNameChar_eq (c : Char) :
  isNameChar c = (c.isUpper || isSmall c)
  := by
  change (c.isUpper || c.isLower || c.isDigit) = _
  rw [isSmall, Bool.or_assoc]

/-- Letters and digits are below 128. -/
theorem lt_of_isNameChar (h : isNameChar c = true) :
  c.toNat < 128
  := by
  rw [isNameChar_eq, isSmall, Bool.or_eq_true, Bool.or_eq_true, isUpper_iff, isLower_iff,
    isDigit_iff] at h
  omega

/-- Small letters and digits are letters and digits. -/
theorem isNameChar_of_isSmall (h : isSmall c = true) :
  isNameChar c = true
  := by
  rw [isNameChar_eq, h, Bool.or_true]

/-- Small letters and digits are no white space. -/
theorem isBlankChar_of_isSmall (h : isSmall c = true) :
  Text.isBlankChar c = false
  := by
  rw [isSmall, Bool.or_eq_true, isLower_iff, isDigit_iff] at h
  rw [Text.isBlankChar, List.any_eq_false]
  simp only [Text.blankRanges, List.forall_mem_cons, Bool.and_eq_true, decide_eq_true_eq]
  refine ⟨by omega, by omega, by omega, by omega, by omega, by omega, by omega, by omega,
    by omega, by omega, by simp⟩

/-- No character in small letters is a capital one. -/
theorem isUpper_toLower (c : Char) :
  c.toLower.isUpper = false
  := by
  rw [Bool.eq_false_iff, ne_eq, isUpper_iff]
  delta Char.toLower
  split
  case isTrue h =>
    simp only [ge_iff_le, UInt32.le_iff_toNat_le] at h
    have hlower : (c.val + ('a'.val - 'A'.val)).toNat = (c.val.toNat + 32) % 2 ^ 32 := rfl
    have hlast : 'Z'.val.toNat = 90 := rfl
    have hfirst : 'A'.val.toNat = 65 := rfl
    change ¬(65 ≤ (c.val + ('a'.val - 'A'.val)).toNat ∧ (c.val + ('a'.val - 'A'.val)).toNat ≤ 90)
    omega
  case isFalse h =>
    rw [← isUpper_iff]
    intro hupper
    apply h (of_decide_eq_true hupper)

/-- Letters and digits among the small letters of a character are small. -/
theorem isSmall_of_mem_lowerChar {d : Char} (h : c ∈ lowerChar d) (hc : isNameChar c = true) :
  isSmall c = true
  := by
  rw [lowerChar] at h
  split at h
  · obtain rfl := List.mem_singleton.mp h
    rfl
  split at h
  · obtain rfl | h := List.mem_cons.mp h
    · rfl
    · obtain rfl := List.mem_singleton.mp h
      cases hc
  · obtain rfl := List.mem_singleton.mp h
    rw [isNameChar_eq, isUpper_toLower, Bool.false_or] at hc
    apply hc

/-! ### The part made from a title -/

/-- The runs of letters and digits of a title in small letters. -/
def titleRuns (title : String) : List (List Char) := runs (title.toList.flatMap lowerChar)

/-- The runs of a title are words of small letters and digits. -/
theorem words_titleRuns (title : String) :
  Words isSmall (titleRuns title)
  := by
  apply words_runs
  intro c hc hname
  obtain ⟨d, -, hd⟩ := List.mem_flatMap.mp hc
  apply isSmall_of_mem_lowerChar hd hname

/-- Words that a server is named with where some are found in its title. -/
structure SlugOf (found ws : List (List Char)) : Prop where
  /-- They are words of small letters and digits. -/
  words : Words isSmall ws
  /-- There are words. -/
  nonempty : ws ≠ []
  /-- With underscores between them they keep to the bound. -/
  length_le : (underscored ws).length ≤ slugBound
  /-- Without any in the title there is one. -/
  of_none : found = [] → ws = ["openapi".toList]
  /-- They are the first of those in the title. -/
  of_some : found ≠ [] → underscored ws <+: underscored found
  /-- They are all of those in the title if there is room. -/
  of_short : found ≠ [] → (underscored found).length ≤ slugBound → ws = found

/-- The part of a name that is made from a title is what is left of the runs of the title. -/
theorem titleSlug_eq (title : String) :
  titleSlug title =
    let slug := trimEnd ((underscored (titleRuns title)).take slugBound)
    if slug.isEmpty then "openapi" else String.ofList slug
  := by
  rw [titleSlug, trimUnderscores_joinRuns]
  rfl

/-- The part of a name that is made from a title consists of words with single underscores
between them. -/
theorem exists_slugOf (title : String) :
  ∃ ws, (titleSlug title).toList = underscored ws ∧ SlugOf (titleRuns title) ws
  := by
  have hfound := words_titleRuns title
  rw [titleSlug_eq]
  generalize titleRuns title = found at hfound
  dsimp only
  by_cases hnil : found = []
  · use ["openapi".toList]
    rw [hnil]
    constructor
    · decide
    · exact ⟨by simp [Words]; decide, by simp, by decide, fun _ => rfl, by simp, by simp⟩
  obtain ⟨us, hus, hwords, hne⟩ := exists_of_cut hfound (by decide) slugBound
  have hsome : ¬ (underscored us).isEmpty = true := by
    rw [List.isEmpty_iff, underscored_eq_nil_iff hwords]
    exact hne (by decide) hnil
  by_cases hshort : (underscored found).length ≤ slugBound
  · use found
    rw [List.take_of_length_le hshort, trimEnd_underscored hfound (by decide)] at hus ⊢
    rw [← hus] at hsome
    rw [if_neg hsome, String.toList_ofList]
    exact ⟨rfl, hfound, hnil, hshort, by simp [hnil], fun _ => List.prefix_rfl, fun _ _ => rfl⟩
  · use us
    have hprefix : underscored us <+: (underscored found).take slugBound := by
      rw [← hus]
      apply trimEnd_prefix
    rw [hus, if_neg hsome, String.toList_ofList]
    exact ⟨rfl, hwords, hne (by decide) hnil,
      hprefix.length_le.trans (List.length_take_le slugBound _), by simp [hnil],
      fun _ => hprefix.trans (List.take_prefix slugBound _), fun _ h => absurd h hshort⟩

/-! ### Cutting behind bytes -/

/-- The part of a server name made from the title, if it is cut behind a number of bytes.  There
is none if the cut is inside of a character. -/
def titleSlugOfBytes? (title : String) : Option String := do
  let joined := trimUnderscores (joinRuns false (title.toList.flatMap lowerChar))
  let cut ← Text.ofUtf8? ((Text.utf8 (String.ofList joined)).take slugBound)
  let slug := trimEnd cut.toList
  some (if slug.isEmpty then "openapi" else String.ofList slug)

/-- The first bytes of a text as a text.  There is none if there are fewer or if the last of them
is inside of a character. -/
def firstBytes? (n : Nat) (s : String) : Option String :=
  if n ≤ (Text.utf8 s).length then Text.ofUtf8? ((Text.utf8 s).take n) else none

/-- The name of a server, if all is cut behind numbers of bytes. -/
def nameOfBytes? (title hash : String) : Option String := do
  let slug ← titleSlugOfBytes? title
  let shown ← firstBytes? hashDigitsShown hash
  some (slug ++ "_" ++ shown)

/-- No cut of the runs of a title is inside of a character. -/
theorem titleSlugOfBytes?_eq (title : String) :
  titleSlugOfBytes? title = some (titleSlug title)
  := by
  have hsmall : ∀ c ∈ underscored (titleRuns title), c.toNat < 128 := by
    intro c hc
    obtain hc | rfl := of_mem_underscored (words_titleRuns title) hc
    · apply lt_of_isNameChar (isNameChar_of_isSmall hc)
    · decide
  rw [titleSlugOfBytes?, trimUnderscores_joinRuns, titleSlug_eq]
  rw [titleRuns] at hsmall ⊢
  rw [Text.take_utf8 hsmall, Text.ofUtf8?_utf8, Option.bind_eq_bind, Option.bind_some,
    String.toList_ofList]

/-! ### The hash -/

/-- A digit of a hash. -/
def isHexDigit (c : Char) : Bool := "0123456789abcdef".toList.contains c

/-- Numbers below sixteen are written as digits. -/
theorem isHexDigit_hexDigit :
  ∀ n < 16, isHexDigit (Text.hexDigit n) = true
  := by
  decide

/-- A digit of a hash is a small letter or a digit. -/
theorem isSmall_of_isHexDigit (h : isHexDigit c = true) :
  isSmall c = true
  := by
  rw [isHexDigit, List.contains_iff_mem] at h
  have hall : "0123456789abcdef".toList.all isSmall = true := by decide
  apply List.all_eq_true.mp hall c h

/-- Bytes are written with digits. -/
theorem isHexDigit_of_mem {bytes : List UInt8} (h : c ∈ Text.hexOfBytes bytes) :
  isHexDigit c = true
  := by
  obtain ⟨b, -, hc⟩ := List.mem_flatMap.mp h
  have hb : b.toNat < 256 := b.toNat_lt
  obtain rfl | hc := List.mem_cons.mp hc
  · apply isHexDigit_hexDigit _ (by omega)
  · obtain rfl := List.mem_singleton.mp hc
    apply isHexDigit_hexDigit _ (by omega)

/-- A byte is written with two digits. -/
theorem length_hexOfBytes (bytes : List UInt8) :
  (Text.hexOfBytes bytes).length = 2 * bytes.length
  := by
  induction bytes with
  | nil => rfl
  | cons b rest ih =>
      rw [Text.hexOfBytes, List.flatMap_cons, List.length_append, ← Text.hexOfBytes, ih,
        List.length_cons, List.length_cons, List.length_cons, List.length_nil]
      omega

/-- A hash has sixty-four digits. -/
theorem length_sha256Hex (message : List UInt8) :
  (Digest.sha256Hex message).toList.length = 64
  := by
  rw [Digest.sha256Hex, String.toList_ofList, length_hexOfBytes]
  rfl

/-- The characters of a hash are digits. -/
theorem isHexDigit_of_mem_sha256Hex (h : c ∈ (Digest.sha256Hex message).toList) :
  isHexDigit c = true
  := by
  rw [Digest.sha256Hex, String.toList_ofList] at h
  apply isHexDigit_of_mem h

/-! ### The whole name -/

/-- No cut that makes the name of a server is inside of a character or behind the end of the
hash. -/
theorem nameOfBytes?_sha256Hex (title : String) (message : List UInt8) :
  nameOfBytes? title (Digest.sha256Hex message) =
    some (nameFromTitle title (Digest.sha256Hex message))
  := by
  have hlength := length_sha256Hex message
  have hdigits : ∀ c ∈ (Digest.sha256Hex message).toList, c.toNat < 128 := fun c hc =>
    lt_of_isNameChar
      (isNameChar_of_isSmall (isSmall_of_isHexDigit (isHexDigit_of_mem_sha256Hex hc)))
  generalize Digest.sha256Hex message = hash at hlength hdigits
  have hbytes := Text.utf8_of_lt hdigits
  have hcut := Text.take_utf8 hdigits hashDigitsShown
  rw [String.ofList_toList] at hbytes hcut
  have hle : hashDigitsShown ≤ (Text.utf8 hash).length := by
    rw [hbytes, List.length_map, hlength]
    decide
  rw [nameOfBytes?, titleSlugOfBytes?_eq, firstBytes?, if_pos hle, hcut, Text.ofUtf8?_utf8]
  rfl

/-- The name of a server is words of small letters and digits with single underscores between
them, an underscore and the first digits of the hash. -/
theorem exists_of_nameFromTitle (title : String) (message : List UInt8) :
  ∃ ws shown, SlugOf (titleRuns title) ws ∧ shown <+: (Digest.sha256Hex message).toList ∧
    shown.length = hashDigitsShown ∧ (∀ c ∈ shown, isHexDigit c = true) ∧
    (nameFromTitle title (Digest.sha256Hex message)).toList = underscored ws ++ '_' :: shown
  := by
  obtain ⟨ws, hws, hslug⟩ := exists_slugOf title
  have hlength := length_sha256Hex message
  have hdigits : ∀ c ∈ (Digest.sha256Hex message).toList, isHexDigit c = true := fun c =>
    isHexDigit_of_mem_sha256Hex
  generalize Digest.sha256Hex message = hash at hlength hdigits
  have hshown := List.take_prefix hashDigitsShown hash.toList
  use ws, hash.toList.take hashDigitsShown, hslug, hshown
  constructor
  · rw [List.length_take, hlength]
    decide
  constructor
  · intro c hc
    apply hdigits c (hshown.subset hc)
  · simp only [nameFromTitle, String.toList_append, hws, String.toList_ofList, List.append_assoc]
    rfl

end ApiIntake
