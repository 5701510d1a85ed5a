import ApiIntake.Proofs.Tool.Naming
import ApiIntake.Proofs.Tool.Slug

/-!
# Names made of methods and paths

An operation that the document gives no name has one that is made of its method and path.  The
parameters of the path are opened (`Opens`), and the runs of letters and digits of what comes of
it stand behind the method, with single underscores between them (`uncutName_eq`).  The name is
cut to a bound, which never cuts a character (`nameOfPathBytes?_eq`), but can leave an underscore
at the end.
-/

namespace ApiIntake

open ApiIntake.OpenApi (Method)

variable {inner rest w cs opened : List Char} {c : Char} {fuel : Nat} {method : Method}
  {path : String}

/-! ### Parameters -/

/-- A text begins with a parameter: a brace, at least one character that is no closing brace,
and a closing brace. -/
def BeginsParameter (cs : List Char) : Prop :=
  ∃ inner rest, inner ≠ [] ∧ '\x7d' ∉ inner ∧ cs = '\x7b' :: (inner ++ '\x7d' :: rest)

/-- A text, and what comes of it when its parameters are opened from the left to the right. -/
inductive Opens : List Char → List Char → Prop
  /-- Nothing is left of nothing. -/
  | nil :
    Opens [] []
  /-- An underscore takes the place of the brace before a parameter, and the brace behind it is
  dropped.  What is between them stays, even if it is a brace. -/
  | parameter {inner rest opened : List Char} (nonempty : inner ≠ []) (closed : '\x7d' ∉ inner)
    (behind : Opens rest opened) :
    Opens ('\x7b' :: (inner ++ '\x7d' :: rest)) ('_' :: (inner ++ opened))
  /-- A character that no parameter begins with stays. -/
  | other {c : Char} {cs opened : List Char} (plain : ¬ BeginsParameter (c :: cs))
    (behind : Opens cs opened) :
    Opens (c :: cs) (c :: opened)

/-- What stands before the first closing brace, and what from there on. -/
theorem span_closing (h : '\x7d' ∉ inner) (rest : List Char) :
  (inner ++ '\x7d' :: rest).takeWhile (· ≠ '\x7d') = inner ∧
    (inner ++ '\x7d' :: rest).dropWhile (· ≠ '\x7d') = '\x7d' :: rest
  := by
  have hall : ∀ c ∈ inner, decide (c ≠ '\x7d') = true := by
    intro c hc
    rw [decide_eq_true_eq]
    rintro rfl
    apply h hc
  rw [List.takeWhile_append_of_pos hall, List.dropWhile_append_of_pos hall,
    List.takeWhile_cons_of_neg (by decide), List.dropWhile_cons_of_neg (by decide),
    List.append_nil]
  exact ⟨rfl, rfl⟩

/-- Where a text begins with a parameter, a closing brace is found behind something else. -/
theorem BeginsParameter.span (h : BeginsParameter ('\x7b' :: cs)) :
  cs.takeWhile (· ≠ '\x7d') ≠ [] ∧ cs.dropWhile (· ≠ '\x7d') ≠ []
  := by
  obtain ⟨inner, rest, hne, hclosed, hcs⟩ := h
  obtain rfl := (List.cons.inj hcs).2
  obtain ⟨htake, hdrop⟩ := span_closing hclosed rest
  rw [htake, hdrop]
  exact ⟨hne, List.cons_ne_nil _ rest⟩

/-- Where a closing brace is found, what stands before it has none. -/
theorem of_dropWhile_closing (h : cs.dropWhile (· ≠ '\x7d') = c :: rest) :
  '\x7d' ∉ cs.takeWhile (· ≠ '\x7d') ∧ cs = cs.takeWhile (· ≠ '\x7d') ++ '\x7d' :: rest
  := by
  constructor
  · intro hmem
    have hne := List.mem_takeWhile_imp hmem
    simp at hne
  · have hfirst := List.head?_dropWhile_not (· ≠ '\x7d') cs
    have hsplit := List.takeWhile_append_dropWhile (p := (· ≠ '\x7d')) (l := cs)
    rw [h, List.head?_cons] at hfirst
    obtain rfl : c = '\x7d' := by simpa using hfirst
    rw [h] at hsplit
    exact hsplit.symm

/-- With one turn for each character, all parameters are opened. -/
theorem opens_openBraces (h : cs.length ≤ fuel) :
  Opens cs (openBraces fuel cs)
  := by
  induction fuel generalizing cs with
  | zero =>
      obtain rfl := List.length_eq_zero_iff.mp (Nat.le_zero.mp h)
      exact .nil
  | succ fuel ih =>
      cases cs with
      | nil => exact .nil
      | cons c cs =>
          rw [List.length_cons] at h
          by_cases hc : c = '\x7b'
          · subst hc
            rw [openBraces]
            cases hdrop : cs.dropWhile (· ≠ '\x7d') with
            | nil =>
                -- no brace closes
                apply Opens.other _ (ih (by omega))
                intro hbegins
                apply hbegins.span.2 hdrop
            | cons d rest =>
                dsimp only
                obtain ⟨hclosed, hcs⟩ := of_dropWhile_closing hdrop
                split
                case isTrue hempty =>
                  apply Opens.other _ (ih (by omega))
                  intro hbegins
                  apply hbegins.span.1 (List.isEmpty_iff.mp hempty)
                case isFalse hsome =>
                  have hlength := congrArg List.length hcs
                  rw [List.length_append, List.length_cons] at hlength
                  have hrest : Opens rest (openBraces fuel rest) := ih (by omega)
                  have hopens := Opens.parameter (mt List.isEmpty_iff.mpr hsome) hclosed hrest
                  rw [← hcs] at hopens
                  apply hopens
          · rw [openBraces]
            · apply Opens.other _ (ih (by omega))
              rintro ⟨inner, rest, -, -, hbegins⟩
              apply hc (List.cons.inj hbegins).1
            · exact hc

/-- A character that is no opening brace stays in front. -/
theorem Opens.of_cons (h : Opens (c :: cs) opened) (hc : c ≠ '\x7b') :
  ∃ behind, opened = c :: behind ∧ Opens cs behind
  := by
  cases h with
  | parameter => exact absurd rfl hc
  | @other _ _ behind plain hbehind => exact ⟨behind, rfl, hbehind⟩

/-- A text without opening braces stays in front. -/
theorem Opens.of_append (h : Opens (w ++ cs) opened) (hw : '\x7b' ∉ w) :
  ∃ behind, opened = w ++ behind ∧ Opens cs behind
  := by
  induction w generalizing opened with
  | nil => exact ⟨opened, rfl, h⟩
  | cons c w ih =>
      rw [List.mem_cons, not_or] at hw
      obtain ⟨rest, rfl, hrest⟩ := h.of_cons (Ne.symm hw.1)
      obtain ⟨behind, rfl, hbehind⟩ := ih hrest hw.2
      exact ⟨behind, rfl, hbehind⟩

/-! ### The name before it is cut -/

/-- The name of an operation by its method and path, as long as it comes out. -/
def uncutName (method : Method) (path : String) : String :=
  let raw := method.lower.toList ++ '_' :: path.toList
  String.ofList (trimUnderscores (joinRuns false (openBraces raw.length raw)))

/-- The name of an operation by its method and path, if it is cut behind a number of bytes.
There is none if the cut is inside of a character. -/
def nameOfPathBytes? (method : Method) (path : String) : Option String :=
  Text.ofUtf8? ((Text.utf8 (uncutName method path)).take toolNameBound)

/-- A method is a short word of letters. -/
theorem lower_word (method : Method) :
  method.lower.toList ≠ [] ∧ (∀ c ∈ method.lower.toList, isNameChar c = true) ∧
    method.lower.toList.length ≤ 7
  := by
  have hne : method.lower.toList ≠ [] := by cases method <;> decide
  have hword : method.lower.toList.all isNameChar = true := by cases method <;> decide
  have hlength : method.lower.toList.length ≤ 7 := by cases method <;> decide
  exact ⟨hne, List.all_eq_true.mp hword, hlength⟩

/-- The first characters of the whole name are the name. -/
theorem toList_nameFromPath (method : Method) (path : String) :
  (nameFromPath method path).toList = (uncutName method path).toList.take toolNameBound
  := by
  rw [nameFromPath, uncutName, String.toList_ofList, String.toList_ofList]

/-- The whole name is the method and the runs of the path when its parameters are opened, with
single underscores between them. -/
theorem uncutName_eq (method : Method) (path : String) :
  ∃ opened, Opens path.toList opened ∧
    (uncutName method path).toList = underscored (method.lower.toList :: runs opened)
  := by
  obtain ⟨hne, hword, -⟩ := lower_word method
  have hopens := opens_openBraces (Nat.le_refl (method.lower.toList ++ '_' :: path.toList).length)
  have hbrace : '\x7b' ∉ method.lower.toList := by
    intro hmem
    cases hword _ hmem
  obtain ⟨behind, heq, hbehind⟩ := hopens.of_append hbrace
  obtain ⟨opened, rfl, hopened⟩ := hbehind.of_cons (by decide)
  use opened, hopened
  rw [uncutName, String.toList_ofList, heq, trimUnderscores_joinRuns,
    runs_append_underscore hne hword]

/-- A method and the runs of a text are words. -/
theorem words_lower_runs (method : Method) (cs : List Char) :
  Words isNameChar (method.lower.toList :: runs cs)
  := by
  obtain ⟨hne, hword, -⟩ := lower_word method
  apply words_cons.mpr
  exact ⟨⟨hne, hword⟩, words_runs fun _ _ h => h⟩

/-! ### The cut -/

/-- No cut that makes a name is inside of a character. -/
theorem nameOfPathBytes?_eq (method : Method) (path : String) :
  nameOfPathBytes? method path = some (nameFromPath method path)
  := by
  obtain ⟨opened, -, hname⟩ := uncutName_eq method path
  have hlt : ∀ c ∈ (uncutName method path).toList, c.toNat < 128 := by
    intro c hc
    rw [hname] at hc
    obtain hc | rfl := of_mem_underscored (words_lower_runs method opened) hc
    · apply lt_of_isNameChar hc
    · decide
  have hcut := Text.take_utf8 hlt toolNameBound
  rw [String.ofList_toList, ← toList_nameFromPath, String.ofList_toList] at hcut
  rw [nameOfPathBytes?, hcut, Text.ofUtf8?_utf8]

/-- There is room for the method, and for the underscore behind it if there is one. -/
theorem exists_behind_lower (method : Method) (ws : List (List Char)) :
  ∃ rest, (underscored (method.lower.toList :: ws)).take toolNameBound =
    method.lower.toList ++ rest ∧ ∀ c ∈ rest.head?, c = '_'
  := by
  obtain ⟨-, -, hlength⟩ := lower_word method
  by_cases hnil : ws = []
  · have hle : method.lower.toList.length ≤ toolNameBound := Nat.le_trans hlength (by decide)
    use []
    rw [hnil, underscored_singleton, List.append_nil, List.take_of_length_le hle]
    simp
  · obtain ⟨k, hk⟩ : ∃ k, toolNameBound = method.lower.toList.length + (k + 1) :=
      ⟨toolNameBound - method.lower.toList.length - 1, by rw [toolNameBound]; omega⟩
    use '_' :: (underscored ws).take k
    rw [underscored_cons _ hnil, hk, List.take_length_add_append, List.take_succ_cons]
    use rfl
    intro c hc
    exact (Option.some.inj hc).symm

/-- Whatever the method and the path, the name made of them is at most 64 characters long, which
are ASCII letters and digits and single underscores.  It begins with the method, and behind it
comes nothing or an underscore.  No cut that makes it is inside of a character.  It consists of
the first characters of the method and the runs of the path with its parameters opened, joined by
underscores, and does not end in an underscore unless something is cut off. -/
theorem operation_named_for_path (method : Method) (path : String) :
  nameOfPathBytes? method path = some (nameFromPath method path) ∧
    (nameFromPath method path).length ≤ 64 ∧
    (∀ c ∈ (nameFromPath method path).toList, isNameChar c = true ∨ c = '_') ∧
    (∃ rest, (nameFromPath method path).toList = method.lower.toList ++ rest ∧
      ∀ c ∈ rest.head?, c = '_') ∧
    ((nameFromPath method path).toList.IsChain fun c d => c ≠ '_' ∨ d ≠ '_') ∧
    ∃ opened, Opens path.toList opened ∧
      (uncutName method path).toList = underscored (method.lower.toList :: runs opened) ∧
      (nameFromPath method path).toList = (uncutName method path).toList.take 64 ∧
      ((uncutName method path).length ≤ 64 →
        (nameFromPath method path).toList.getLast? ≠ some '_')
  := by
  obtain ⟨opened, hopened, hname⟩ := uncutName_eq method path
  have hwords := words_lower_runs method opened
  have hcut := toList_nameFromPath method path
  use nameOfPathBytes?_eq method path, length_nameFromPath_le method path
  constructor
  · intro c hc
    rw [hcut, hname] at hc
    apply of_mem_underscored hwords (List.mem_of_mem_take hc)
  constructor
  · rw [hcut, hname]
    apply exists_behind_lower
  constructor
  · rw [hcut, hname]
    apply (isChain_underscored hwords (by decide)).take
  · use opened, hopened, hname, hcut
    intro hshort
    rw [hcut, List.take_of_length_le (by rwa [String.length_toList]), hname]
    apply getLast?_underscored hwords (by decide)

/-- A brace inside a parameter stays and separates, the brace behind the parameter does not, and
braces with nothing between them are no parameter. -/
theorem operation_named_for_path_braces :
  nameFromPath .get "/x\x7ba\x7bb\x7dc/\x7b\x7d" = "get_x_a_bc" ∧
    (nameFromPath .get "/x\x7ba\x7bb\x7dc/\x7b\x7d").toList.getLast? ≠ some '_'
  := by
  obtain ⟨-, -, -, -, -, opened, -, -, -, hlast⟩ :=
    operation_named_for_path .get "/x\x7ba\x7bb\x7dc/\x7b\x7d"
  constructor
  · decide +kernel
  · apply hlast
    decide +kernel

/-- A name that is cut behind an underscore ends in it. -/
example :
    let path := String.ofList ('/' :: List.replicate 59 'a' ++ ['/', 'b'])
    (nameFromPath .get path).toList.getLast? = some '_' := by
  decide +kernel

end ApiIntake
