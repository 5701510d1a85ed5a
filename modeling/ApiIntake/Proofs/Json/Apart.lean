import ApiIntake.Proofs.Json.Text

/-!
# Values told apart by their texts

A text shows which value it is of and where that ends (`Json.chars_append_inj`), if the value
holds no floating-point numbers (`Json.isFloatFree`).  Neither the size of whole numbers nor
the depth of nesting matters here, unlike where a text is read.
-/

namespace ApiIntake.Json

mutual

/-- Whether a value holds no floating-point number. -/
def isFloatFree : Json → Bool
  | .float _ => false
  | .arr items => floatFreeItems items
  | .obj members => floatFreeMembers members
  | _ => true

/-- `isFloatFree` for every item. -/
def floatFreeItems : List Json → Bool
  | [] => true
  | v :: rest => v.isFloatFree && floatFreeItems rest

/-- `isFloatFree` for the value of every member. -/
def floatFreeMembers : List (String × Json) → Bool
  | [] => true
  | (_, v) :: rest => v.isFloatFree && floatFreeMembers rest

end

variable {r s : List Char}

/-! ### Strings and numbers -/

/-- A quoted string shows which one it is. -/
theorem quote_append_inj {k l : String} (h : quote k ++ r = quote l ++ s) :
  k = l ∧ r = s
  := by
  obtain ⟨cs, hcs, hk⟩ := stringChars?_quote k r
  obtain ⟨ds, hds, hl⟩ := stringChars?_quote l s
  rw [hcs, hds] at h
  cases h
  rw [hk] at hl
  obtain ⟨hkl, hrs⟩ := Prod.mk.inj (Option.some.inj hl)
  exact ⟨String.toList_inj.mp hkl, hrs⟩

/-- Digits show which number they are of. -/
theorem toDigits_append_inj {m n : Nat} (hr : Closes r) (hs : Closes s)
    (h : Nat.toDigits 10 m ++ r = Nat.toDigits 10 n ++ s) :
  m = n ∧ r = s
  := by
  have hspan := span_toDigits m hr
  rw [h, span_toDigits n hs] at hspan
  obtain ⟨hmn, hrs⟩ := Prod.mk.inj hspan
  rw [← Text.digitsValue_toDigits m, ← hmn, Text.digitsValue_toDigits]
  exact ⟨rfl, hrs.symm⟩

/-- The text of a whole number shows which one it is. -/
theorem intText_append_inj {m n : Int} (hr : Closes r) (hs : Closes s)
    (h : intText m ++ r = intText n ++ s) :
  m = n ∧ r = s
  := by
  rw [intText, intText, Binary64.digitText, Binary64.digitText] at h
  split_ifs at h with hm hn hn
  · obtain ⟨habs, hrs⟩ := toDigits_append_inj hr hs (List.cons.inj h).2
    exact ⟨by omega, hrs⟩
  · apply absurd h.symm (toDigits_append_ne _ _ _)
  · apply absurd h (toDigits_append_ne _ _ _)
  · obtain ⟨habs, hrs⟩ := toDigits_append_inj hr hs h
    exact ⟨by omega, hrs⟩

/-! ### Kinds of values -/

/-- The kinds of values that texts begin differently for. -/
inductive Kind where
  | null
  | yes
  | no
  | number
  | text
  | list
  | table

/-- The kind of a value. -/
def kind : Json → Kind
  | .null => .null
  | .bool b => if b then .yes else .no
  | .int _ => .number
  | .float _ => .number
  | .str _ => .text
  | .arr _ => .list
  | .obj _ => .table

/-- The kind of a value whose text begins with a character. -/
def kindFrom (c : Char) : Kind :=
  if c = 'n' then .null
  else if c = 't' then .yes
  else if c = 'f' then .no
  else if c = '"' then .text
  else if c = '[' then .list
  else if c = '\x7b' then .table
  else .number

/-- Numbers begin with a sign or a digit. -/
theorem kindFrom_number {c : Char} (h : c = '-' ∨ c.isDigit = true) :
  kindFrom c = .number ∧ c ≠ ']'
  := by
  have hc : ∀ k : Char, k ≠ '-' → k.isDigit = false → c ≠ k := by
    intro k
    apply ne_of_sign_or_digit h
  constructor
  · simp [kindFrom, hc]
  · apply hc ']' <;> decide

/-- The text of a value begins as its kind has it, and no value begins with a closing
bracket. -/
theorem exists_kindFrom {v : Json} (hv : v.isFloatFree = true) (r : List Char) :
  ∃ c cs, v.chars ++ r = c :: cs ∧ kindFrom c = v.kind ∧ c ≠ ']'
  := by
  cases v with
  | null => exact ⟨_, _, rfl, rfl, by decide⟩
  | bool b => cases b <;> exact ⟨_, _, rfl, rfl, by decide⟩
  | int n =>
      obtain ⟨c, cs, hcs, hc⟩ := exists_sign_or_digit n r
      use c, cs, hcs
      apply kindFrom_number hc
  | float x => cases hv
  | str k => exact ⟨_, _, rfl, rfl, by decide⟩
  | arr items => cases items <;> exact ⟨_, _, rfl, rfl, by decide⟩
  | obj members => cases members <;> exact ⟨_, _, rfl, rfl, by decide⟩

/-- Two values without floating-point numbers are of one kind. -/
inductive Alike : Json → Json → Prop
  | null : Alike .null .null
  | bool (b : Bool) : Alike (.bool b) (.bool b)
  | int (m n : Int) : Alike (.int m) (.int n)
  | str (k l : String) : Alike (.str k) (.str l)
  | arr (vs ws : List Json) : Alike (.arr vs) (.arr ws)
  | obj (ms ns : List (String × Json)) : Alike (.obj ms) (.obj ns)

/-- Values without floating-point numbers are alike if their kind is the same. -/
theorem alike_of_kind : ∀ {v w : Json}, v.isFloatFree = true → w.isFloatFree = true →
  v.kind = w.kind → Alike v w
  | .null, .null, _, _, _ => .null
  | .bool true, .bool true, _, _, _ => .bool true
  | .bool false, .bool false, _, _, _ => .bool false
  | .int m, .int n, _, _, _ => .int m n
  | .str k, .str l, _, _, _ => .str k l
  | .arr vs, .arr ws, _, _, _ => .arr vs ws
  | .obj ms, .obj ns, _, _, _ => .obj ms ns

/-- Values whose texts begin the same are alike. -/
theorem alike_of_chars {v w : Json} (hv : v.isFloatFree = true) (hw : w.isFloatFree = true)
    (h : v.chars ++ r = w.chars ++ s) :
  Alike v w
  := by
  obtain ⟨c, cs, hcs, hc, -⟩ := exists_kindFrom hv r
  obtain ⟨d, ds, hds, hd, -⟩ := exists_kindFrom hw s
  rw [hcs, hds] at h
  cases h
  apply alike_of_kind hv hw
  rw [← hc, hd]

/-- No value begins where an array closes. -/
theorem chars_append_ne_bracket {v : Json} (hv : v.isFloatFree = true) (r s : List Char) :
  v.chars ++ r ≠ ']' :: s
  := by
  obtain ⟨c, cs, hcs, -, hc⟩ := exists_kindFrom hv r
  rw [hcs]
  intro h
  apply hc (List.cons.inj h).1

/-! ### Values -/

mutual

/-- The text of a value shows which value it is of and where it ends, whatever closes behind
it. -/
theorem chars_append_inj {v w : Json} {r s : List Char} (hv : v.isFloatFree = true)
    (hw : w.isFloatFree = true) (hr : Closes r) (hs : Closes s)
    (h : v.chars ++ r = w.chars ++ s) :
  v = w ∧ r = s
  := by
  cases alike_of_chars hv hw h with
  | null => exact ⟨rfl, List.append_cancel_left h⟩
  | bool b => exact ⟨rfl, List.append_cancel_left h⟩
  | int m n =>
      obtain ⟨hmn, hrs⟩ := intText_append_inj hr hs h
      exact ⟨congrArg int hmn, hrs⟩
  | str k l =>
      obtain ⟨hkl, hrs⟩ := quote_append_inj h
      exact ⟨congrArg str hkl, hrs⟩
  | arr vs ws =>
      match vs, ws with
      | [], [] => exact ⟨rfl, List.append_cancel_left h⟩
      | [], w :: ws =>
          simp only [chars, List.cons_append, List.append_assoc] at h
          apply absurd (List.cons.inj h).2.symm
          apply chars_append_ne_bracket (Bool.and_eq_true_iff.mp hw).1
      | v :: vs, [] =>
          simp only [chars, List.cons_append, List.append_assoc] at h
          apply absurd (List.cons.inj h).2
          apply chars_append_ne_bracket (Bool.and_eq_true_iff.mp hv).1
      | v :: vs, w :: ws =>
          obtain ⟨hhead, htail⟩ := Bool.and_eq_true_iff.mp hv
          obtain ⟨hhead', htail'⟩ := Bool.and_eq_true_iff.mp hw
          simp only [chars, List.cons_append, List.append_assoc] at h
          obtain ⟨rfl, hitems⟩ := chars_append_inj hhead hhead' (closes_itemChars vs r)
            (closes_itemChars ws s) (List.cons.inj h).2
          obtain ⟨rfl, hrs⟩ := itemChars_append_inj htail htail' hitems
          exact ⟨rfl, hrs⟩
  | obj ms ns =>
      match ms, ns with
      | [], [] => exact ⟨rfl, List.append_cancel_left h⟩
      | [], n :: ns => cases (List.cons.inj h).2
      | m :: ms, [] => cases (List.cons.inj h).2
      | (k, v) :: ms, (l, w) :: ns =>
          obtain ⟨hhead, htail⟩ := Bool.and_eq_true_iff.mp hv
          obtain ⟨hhead', htail'⟩ := Bool.and_eq_true_iff.mp hw
          simp only [chars, List.cons_append, List.append_assoc] at h
          obtain ⟨rfl, hvalue⟩ := quote_append_inj (List.cons.inj h).2
          obtain ⟨rfl, hmembers⟩ := chars_append_inj hhead hhead' (closes_memberChars ms r)
            (closes_memberChars ns s) (List.cons.inj hvalue).2
          obtain ⟨rfl, hrs⟩ := memberChars_append_inj htail htail' hmembers
          exact ⟨rfl, hrs⟩

/-- The text of the items behind the first shows which they are and where they end. -/
theorem itemChars_append_inj {vs ws : List Json} {r s : List Char}
    (hvs : floatFreeItems vs = true) (hws : floatFreeItems ws = true)
    (h : itemChars vs ++ r = itemChars ws ++ s) :
  vs = ws ∧ r = s
  := by
  match vs, ws with
  | [], [] => exact ⟨rfl, List.append_cancel_left h⟩
  | [], w :: ws => cases (List.cons.inj h).1
  | v :: vs, [] => cases (List.cons.inj h).1
  | v :: vs, w :: ws =>
      obtain ⟨hhead, htail⟩ := Bool.and_eq_true_iff.mp hvs
      obtain ⟨hhead', htail'⟩ := Bool.and_eq_true_iff.mp hws
      simp only [itemChars, List.cons_append, List.append_assoc] at h
      obtain ⟨rfl, hitems⟩ := chars_append_inj hhead hhead' (closes_itemChars vs r)
        (closes_itemChars ws s) (List.cons.inj h).2
      obtain ⟨rfl, hrs⟩ := itemChars_append_inj htail htail' hitems
      exact ⟨rfl, hrs⟩

/-- The text of the members behind the first shows which they are and where they end. -/
theorem memberChars_append_inj {ms ns : List (String × Json)} {r s : List Char}
    (hms : floatFreeMembers ms = true) (hns : floatFreeMembers ns = true)
    (h : memberChars ms ++ r = memberChars ns ++ s) :
  ms = ns ∧ r = s
  := by
  match ms, ns with
  | [], [] => exact ⟨rfl, List.append_cancel_left h⟩
  | [], n :: ns => cases (List.cons.inj h).1
  | m :: ms, [] => cases (List.cons.inj h).1
  | (k, v) :: ms, (l, w) :: ns =>
      obtain ⟨hhead, htail⟩ := Bool.and_eq_true_iff.mp hms
      obtain ⟨hhead', htail'⟩ := Bool.and_eq_true_iff.mp hns
      simp only [memberChars, List.cons_append, List.append_assoc] at h
      obtain ⟨rfl, hvalue⟩ := quote_append_inj (List.cons.inj h).2
      obtain ⟨rfl, hmembers⟩ := chars_append_inj hhead hhead' (closes_memberChars ms r)
        (closes_memberChars ns s) (List.cons.inj hvalue).2
      obtain ⟨rfl, hrs⟩ := memberChars_append_inj htail htail' hmembers
      exact ⟨rfl, hrs⟩

end

/-- Values without floating-point numbers are told apart by their compact texts. -/
theorem compact_inj {v w : Json} (hv : v.isFloatFree = true) (hw : w.isFloatFree = true)
    (h : v.compact = w.compact) :
  v = w
  := by
  have hchars : v.chars ++ [] = w.chars ++ [] := by
    rw [String.ofList_injective h]
  have closed : Closes [] := trivial
  apply (chars_append_inj hv hw closed closed hchars).1

end ApiIntake.Json
