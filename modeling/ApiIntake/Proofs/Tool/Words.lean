import ApiIntake.Tool.Name
import Mathlib.Data.List.Chain
import Mathlib.Data.List.DropRight
import Mathlib.Tactic.Use

/-!
# Words with underscores between them

What `joinRuns` and `trimUnderscores` make of a text are its longest runs of letters and digits
with single underscores between them (`trimUnderscores_joinRuns`).  If that is cut anywhere and
underscores are dropped from its end, what is left are words with single underscores between them
again (`exists_of_cut`).
-/

namespace ApiIntake

/-- Words of characters of a kind: none of them is empty. -/
def Words (kind : Char → Bool) (ws : List (List Char)) : Prop :=
  ∀ w ∈ ws, w ≠ [] ∧ ∀ c ∈ w, kind c = true

/-- Words with single underscores between them. -/
def underscored (ws : List (List Char)) : List Char := ['_'].intercalate ws

/-- The longest runs of letters and digits in a text. -/
def runs (cs : List Char) : List (List Char) :=
  (cs.splitOnP fun c => !isNameChar c).filter fun w => !w.isEmpty

variable {kind : Char → Bool} {ws us : List (List Char)} {w cs : List Char} {c : Char} {n : Nat}

/-! ### Words -/

/-- The first of some words and the others are words. -/
theorem words_cons :
  Words kind (w :: ws) ↔ (w ≠ [] ∧ ∀ c ∈ w, kind c = true) ∧ Words kind ws
  := by
  simp [Words]

/-- A word by itself has no underscores beside it. -/
theorem underscored_singleton (w : List Char) :
  underscored [w] = w
  := by
  simp [underscored]

/-- Between a word and those behind it stands an underscore. -/
theorem underscored_cons (w : List Char) (h : ws ≠ []) :
  underscored (w :: ws) = w ++ '_' :: underscored ws
  := by
  obtain ⟨u, us, rfl⟩ := List.exists_cons_of_ne_nil h
  simp [underscored, List.intercalate_cons_cons]

/-- A character in front stands in the first word. -/
theorem underscored_cons_cons (c : Char) (w : List Char) (ws : List (List Char)) :
  underscored ((c :: w) :: ws) = c :: underscored (w :: ws)
  := by
  cases ws with
  | nil => rw [underscored_singleton, underscored_singleton]
  | cons u us =>
      rw [underscored_cons _ (List.cons_ne_nil u us), underscored_cons _ (List.cons_ne_nil u us),
        List.cons_append]

/-- There are characters where there are words. -/
theorem underscored_eq_nil_iff (h : Words kind ws) :
  underscored ws = [] ↔ ws = []
  := by
  cases ws with
  | nil => simp [underscored]
  | cons w ws =>
      obtain ⟨⟨hw, -⟩, -⟩ := words_cons.mp h
      obtain ⟨c, w, rfl⟩ := List.exists_cons_of_ne_nil hw
      rw [underscored_cons_cons]
      simp

/-- Each character is one of a word or an underscore. -/
theorem of_mem_underscored (h : Words kind ws) (hc : c ∈ underscored ws) :
  kind c = true ∨ c = '_'
  := by
  induction ws with
  | nil => cases hc
  | cons w ws ih =>
      obtain ⟨⟨-, hw⟩, hws⟩ := words_cons.mp h
      by_cases hnil : ws = []
      · rw [hnil, underscored_singleton] at hc
        exact .inl (hw c hc)
      · rw [underscored_cons w hnil, List.mem_append, List.mem_cons] at hc
        obtain hc | rfl | hc := hc
        · exact .inl (hw c hc)
        · exact .inr rfl
        · apply ih hws hc

/-! ### Underscores at the end -/

/-- Nothing is left of nothing. -/
theorem trimEnd_nil :
  trimEnd [] = []
  := by
  rfl

/-- Underscores are dropped up to a character that is none. -/
theorem trimEnd_cons_of_ne (h : c ≠ '_') (cs : List Char) :
  trimEnd (c :: cs) = c :: trimEnd cs
  := by
  rw [trimEnd, trimEnd, List.reverse_cons, List.dropWhile_append]
  split
  case isTrue hall =>
    rw [List.isEmpty_iff.mp hall, List.dropWhile_cons_of_neg (by simpa using h)]
    rfl
  case isFalse => rw [List.reverse_append, List.reverse_singleton, List.singleton_append]

/-- An underscore is dropped as well if all behind it is. -/
theorem trimEnd_underscore (cs : List Char) :
  trimEnd ('_' :: cs) = if trimEnd cs = [] then [] else '_' :: trimEnd cs
  := by
  rw [trimEnd, trimEnd, List.reverse_cons, List.dropWhile_append]
  simp only [List.reverse_eq_nil_iff, List.isEmpty_iff]
  split
  case isTrue => rfl
  case isFalse => rw [List.reverse_append, List.reverse_singleton, List.singleton_append]

/-- Underscores are dropped up to a word. -/
theorem trimEnd_append (h : ∀ c ∈ w, c ≠ '_') (cs : List Char) :
  trimEnd (w ++ cs) = w ++ trimEnd cs
  := by
  induction w with
  | nil => rfl
  | cons c w ih =>
      rw [List.cons_append, trimEnd_cons_of_ne (h c List.mem_cons_self),
        ih fun d hd => h d (List.mem_cons_of_mem c hd), List.cons_append]

/-- What is cut off at the end leaves the beginning. -/
theorem trimEnd_prefix (cs : List Char) :
  trimEnd cs <+: cs
  := by
  apply List.rdropWhile_prefix

/-- Behind a word and an underscore, dropping leaves words with underscores between them if it
does so behind the underscore. -/
theorem trimEnd_append_underscore (hw : ∀ c ∈ w, c ≠ '_') (hus : Words kind us)
    (h : trimEnd cs = underscored us) :
  trimEnd (w ++ '_' :: cs) = underscored (w :: us)
  := by
  rw [trimEnd_append hw, trimEnd_underscore, h]
  by_cases hnil : us = []
  · subst hnil
    rw [underscored_singleton]
    exact List.append_nil w
  · rw [if_neg (mt (underscored_eq_nil_iff hus).mp hnil), underscored_cons w hnil]

/-- Where the characters of words are of a kind that underscores are not of, a word has none. -/
theorem ne_of_kind (hw : ∀ c ∈ w, kind c = true) (hkind : kind '_' = false) :
  ∀ c ∈ w, c ≠ '_'
  := by
  rintro c hc rfl
  rw [hw _ hc] at hkind
  cases hkind

/-- Words with underscores between them have none at the end. -/
theorem trimEnd_underscored (h : Words kind ws) (hkind : kind '_' = false) :
  trimEnd (underscored ws) = underscored ws
  := by
  induction ws with
  | nil => rfl
  | cons w ws ih =>
      obtain ⟨⟨-, hw⟩, hws⟩ := words_cons.mp h
      have hw := ne_of_kind hw hkind
      by_cases hnil : ws = []
      · rw [hnil, underscored_singleton]
        simpa [trimEnd_nil] using trimEnd_append hw []
      · rw [underscored_cons w hnil, trimEnd_append_underscore hw hws (ih hws),
          underscored_cons w hnil]

/-! ### Neighbours -/

/-- Words with underscores between them do not end in one. -/
theorem getLast?_underscored (h : Words kind ws) (hkind : kind '_' = false) :
  (underscored ws).getLast? ≠ some '_'
  := by
  intro hlast
  have hne : underscored ws ≠ [] := by
    intro hnil
    rw [hnil] at hlast
    cases hlast
  rw [List.getLast?_eq_some_getLast hne] at hlast
  apply List.rdropWhile_eq_self_iff.mp (trimEnd_underscored h hkind) hne
  exact decide_eq_true (Option.some.inj hlast)

/-- Words with underscores between them do not begin with one. -/
theorem ne_of_head?_underscored (h : Words kind ws) (hkind : kind '_' = false)
    (hc : c ∈ (underscored ws).head?) :
  c ≠ '_'
  := by
  cases ws with
  | nil => cases hc
  | cons w ws =>
      obtain ⟨⟨hne, hw⟩, -⟩ := words_cons.mp h
      obtain ⟨d, w, rfl⟩ := List.exists_cons_of_ne_nil hne
      rw [underscored_cons_cons] at hc
      obtain rfl := Option.some.inj hc
      apply ne_of_kind hw hkind _ List.mem_cons_self

/-- Of two neighbours in words with underscores between them, one is no underscore. -/
theorem isChain_underscored (h : Words kind ws) (hkind : kind '_' = false) :
  (underscored ws).IsChain fun c d => c ≠ '_' ∨ d ≠ '_'
  := by
  induction ws with
  | nil => exact .nil
  | cons w ws ih =>
      obtain ⟨⟨-, hw⟩, hws⟩ := words_cons.mp h
      have hw := ne_of_kind hw hkind
      have hword : w.IsChain fun c d => c ≠ '_' ∨ d ≠ '_' := by
        apply List.Pairwise.isChain
        apply List.pairwise_of_forall_mem_list
        intro c hc d _
        exact .inl (hw c hc)
      by_cases hnil : ws = []
      · rw [hnil, underscored_singleton]
        apply hword
      · rw [underscored_cons w hnil]
        apply hword.append
        · apply (ih hws).cons
          intro d hd
          exact .inr (ne_of_head?_underscored hws hkind hd)
        · intro c hc d _
          exact .inl (hw c (List.mem_of_getLast? hc))

/-! ### Runs -/

/-- What is no letter or digit belongs to no run. -/
theorem runs_cons_of_not (hc : isNameChar c = false) (cs : List Char) :
  runs (c :: cs) = runs cs
  := by
  simp [runs, List.splitOnP_cons_eq_if_modifyHead, hc]

/-- A letter or digit belongs to a run. -/
theorem runs_ne_nil (hc : isNameChar c = true) (cs : List Char) :
  runs (c :: cs) ≠ []
  := by
  obtain ⟨w, ws, hsplit⟩ := List.exists_cons_of_ne_nil
    (List.splitOnP_ne_nil (fun c => !isNameChar c) cs)
  simp [runs, List.splitOnP_cons_eq_if_modifyHead, hc, hsplit]

/-- A letter or digit begins a run or belongs to the one that begins behind it. -/
theorem runs_cons (hc : isNameChar c = true) (cs : List Char) :
  runs (c :: cs) = match cs with
    | [] => [[c]]
    | d :: ds => if isNameChar d then (runs cs).modifyHead (c :: ·) else [c] :: runs ds
  := by
  cases cs with
  | nil => simp [runs, List.splitOnP_cons_eq_if_modifyHead, hc]
  | cons d ds =>
      cases hd : isNameChar d with
      | true =>
          obtain ⟨w, ws, hsplit⟩ := List.exists_cons_of_ne_nil
            (List.splitOnP_ne_nil (fun c => !isNameChar c) ds)
          simp [runs, List.splitOnP_cons_eq_if_modifyHead, hc, hd, hsplit]
      | false => simp [runs, List.splitOnP_cons_eq_if_modifyHead, hc, hd]

/-- A word of letters and digits before an underscore is the first run. -/
theorem runs_append_underscore (hne : w ≠ []) (hw : ∀ c ∈ w, isNameChar c = true)
    (cs : List Char) :
  runs (w ++ '_' :: cs) = w :: runs cs
  := by
  have hnot : ∀ c ∈ w, (!isNameChar c) = false := by
    intro c hc
    rw [hw c hc]
    rfl
  rw [runs, List.splitOnP_append_cons_of_forall_mem hnot '_' rfl, List.filter_cons_of_pos]
  · rfl
  · simpa using hne

/-- A character of a piece between separators is one of the text and no separator. -/
theorem of_mem_splitOnP {p : Char → Bool} (hw : w ∈ cs.splitOnP p) (hc : c ∈ w) :
  c ∈ cs ∧ p c = false
  := by
  induction cs generalizing w with
  | nil =>
      rw [List.splitOnP_nil, List.mem_singleton] at hw
      rw [hw] at hc
      cases hc
  | cons d ds ih =>
      rw [List.splitOnP_cons_eq_if_modifyHead] at hw
      split at hw
      case isTrue =>
        obtain rfl | hw := List.mem_cons.mp hw
        · cases hc
        · exact (ih hw hc).imp_left (List.mem_cons_of_mem d)
      case isFalse hd =>
        obtain ⟨u, us, hsplit⟩ := List.exists_cons_of_ne_nil (List.splitOnP_ne_nil p ds)
        rw [hsplit] at ih hw
        obtain rfl | hw := List.mem_cons.mp hw
        · obtain rfl | hc := List.mem_cons.mp hc
          · use List.mem_cons_self
            simpa using hd
          · exact (ih List.mem_cons_self hc).imp_left (List.mem_cons_of_mem d)
        · exact (ih (List.mem_cons_of_mem u hw) hc).imp_left (List.mem_cons_of_mem d)

/-- The runs are words of letters and digits of the text. -/
theorem words_runs (h : ∀ c ∈ cs, isNameChar c = true → kind c = true) :
  Words kind (runs cs)
  := by
  intro w hw
  obtain ⟨hw, hne⟩ := List.mem_filter.mp hw
  constructor
  · simpa using hne
  · intro c hc
    obtain ⟨hmem, hname⟩ := of_mem_splitOnP hw hc
    apply h c hmem
    simpa using hname

/-- An underscore is no letter or digit. -/
theorem ne_underscore (h : isNameChar c = true) :
  c ≠ '_'
  := by
  rintro rfl
  cases h

/-- Behind a gap, and behind a letter or digit, what is left are the runs with single
underscores between them. -/
theorem trimEnd_joinRuns (cs : List Char) :
  trimEnd (joinRuns true cs) = underscored (runs cs) ∧
    ∀ c, isNameChar c = true → trimEnd (c :: joinRuns false cs) = underscored (runs (c :: cs))
  := by
  induction cs with
  | nil =>
      use rfl
      intro c hc
      rw [joinRuns, trimEnd_cons_of_ne (ne_underscore hc), trimEnd_nil, runs_cons hc,
        underscored_singleton]
  | cons d ds ih =>
      obtain ⟨ihgap, ihrun⟩ := ih
      cases hd : isNameChar d with
      | true =>
          rw [joinRuns, if_pos hd, joinRuns, if_pos hd]
          use ihrun d hd
          intro c hc
          obtain ⟨w, ws, hruns⟩ := List.exists_cons_of_ne_nil (runs_ne_nil hd ds)
          rw [trimEnd_cons_of_ne (ne_underscore hc), ihrun d hd, runs_cons hc]
          dsimp only
          rw [if_pos hd, hruns, List.modifyHead_cons, underscored_cons_cons]
      | false =>
          have hnot : ¬ isNameChar d = true := by simp [hd]
          rw [joinRuns, if_neg hnot, if_pos rfl, joinRuns, if_neg hnot, if_neg (by decide),
            runs_cons_of_not hd]
          use ihgap
          intro c hc
          have hword : ∀ e ∈ [c], e ≠ '_' := by simpa using ne_underscore hc
          have hruns : Words isNameChar (runs ds) := words_runs fun _ _ h => h
          rw [runs_cons hc]
          dsimp only
          rw [if_neg hnot]
          apply trimEnd_append_underscore hword hruns ihgap

/-- Behind a gap comes no other underscore. -/
theorem dropWhile_joinRuns (cs : List Char) :
  (joinRuns true cs).dropWhile (· = '_') = joinRuns true cs
  := by
  induction cs with
  | nil => rfl
  | cons c cs ih =>
      rw [joinRuns]
      split
      case isTrue hc => exact List.dropWhile_cons_of_neg (by simpa using ne_underscore hc)
      case isFalse =>
        rw [if_pos rfl]
        apply ih

/-- The longest runs of letters and digits are joined by single underscores. -/
theorem trimUnderscores_joinRuns (cs : List Char) :
  trimUnderscores (joinRuns false cs) = underscored (runs cs)
  := by
  cases cs with
  | nil => rfl
  | cons c cs =>
      obtain ⟨hgap, hrun⟩ := trimEnd_joinRuns cs
      rw [trimUnderscores]
      cases hc : isNameChar c with
      | true =>
          rw [joinRuns, if_pos hc, List.dropWhile_cons_of_neg (by simpa using ne_underscore hc)]
          apply hrun c hc
      | false =>
          have hnot : ¬ isNameChar c = true := by simp [hc]
          rw [joinRuns, if_neg hnot, if_neg (by decide), List.dropWhile_cons_of_pos (by decide),
            dropWhile_joinRuns, runs_cons_of_not hc]
          apply hgap

/-! ### Cuts -/

/-- Where words with underscores between them are cut and underscores are dropped from the end,
words with underscores between them are left, and there are some unless nothing is left. -/
theorem exists_of_cut (h : Words kind ws) (hkind : kind '_' = false) (n : Nat) :
  ∃ us, trimEnd ((underscored ws).take n) = underscored us ∧ Words kind us ∧
    (0 < n → ws ≠ [] → us ≠ [])
  := by
  induction ws generalizing n with
  | nil =>
      use []
      simp [underscored, trimEnd_nil, Words]
  | cons w ws ih =>
      obtain ⟨⟨hne, hw⟩, hws⟩ := words_cons.mp h
      by_cases hn : n = 0
      · use []
        simp [hn, underscored, trimEnd_nil, Words]
      by_cases hle : n ≤ w.length
      · -- the cut is in the first word
        have hcut : (underscored (w :: ws)).take n = underscored [w.take n] := by
          rw [underscored_singleton]
          by_cases hnil : ws = []
          · rw [hnil, underscored_singleton]
          · rw [underscored_cons w hnil, List.take_append_of_le_length hle]
        have hwords : Words kind [w.take n] := by
          intro u hu
          obtain rfl := List.mem_singleton.mp hu
          use by simp [hn, hne]
          intro c hc
          apply hw c (List.mem_of_mem_take hc)
        use [w.take n]
        rw [hcut, trimEnd_underscored hwords hkind]
        use rfl, hwords
        simp
      by_cases hnil : ws = []
      · -- the cut is behind the only word
        use [w]
        rw [hnil] at h ⊢
        have hall : (underscored [w]).take n = underscored [w] := by
          rw [underscored_singleton]
          apply List.take_of_length_le (by omega)
        rw [hall, trimEnd_underscored h hkind]
        use rfl, h
        simp
      · -- the cut is behind the first word, and the others are cut
        obtain ⟨k, rfl⟩ : ∃ k, n = w.length + (k + 1) := ⟨n - w.length - 1, by omega⟩
        obtain ⟨us, hus, hwords, -⟩ := ih hws k
        use w :: us
        rw [underscored_cons w hnil, List.take_length_add_append, List.take_succ_cons,
          trimEnd_append_underscore (ne_of_kind hw hkind) hwords hus]
        use rfl, words_cons.mpr ⟨⟨hne, hw⟩, hwords⟩
        simp

end ApiIntake
