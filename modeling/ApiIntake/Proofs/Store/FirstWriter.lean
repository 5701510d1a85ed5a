import ApiIntake.Proofs.Database.Agreement
import ApiIntake.Proofs.Text.ByteOrder
import Mathlib.Data.List.TakeWhile
import Mathlib.Data.List.Nodup

/-!
# The first writer of a name

A catalog is a log of the configurations that were created.  A creation succeeds if its name
is new to the log, and every answer can be given from the log alone (`Conforms`).  A call that
fails leaves no trace, nor does the order in which configurations of different names are
created, and of those of one name the first one that can be created is
(`first_writer_wins`).
-/

namespace ApiIntake

/-- Nothing is left of a text if it is blank. -/
theorem Text.trim_eq_empty_iff {s : String} :
  Text.trim s = "" ↔ Text.isBlank s = true
  := by
  rw [Text.trim, Text.isBlank, List.all_eq_true, ← String.toList_eq_nil_iff, String.toList_ofList,
    List.reverse_eq_nil_iff, List.dropWhile_eq_nil_iff]
  simp only [List.mem_reverse]
  constructor
  · intro h
    apply List.dropWhile_eq_nil_iff.mp
    by_contra hne
    have hfirst := List.head_dropWhile_not isBlankChar hne
    rw [h _ (List.head_mem hne)] at hfirst
    cases hfirst
  · intro h c hc
    apply h c ((List.dropWhile_sublist _).subset hc)

namespace Store

open ApiIntake.Database (StoreCall StoreReply serveLocal)
open ApiIntake.Import (Local)

/-- Whether a configuration is refused shows in its trimmed name. -/
theorem refusal?_eq (c : ServerConfig) :
  refusal? c = if Text.trim c.name = "" then some (.invalid "name must be non-empty") else none
  := by
  simp only [refusal?, Text.trim_eq_empty_iff]

/-! ### Catalogs without a name twice -/

namespace Catalog

/-- No two configurations have one name. -/
def Distinct (k : Catalog) : Prop := (k.configs.map (·.name)).Nodup

variable {k l : Catalog} {cancelled : Bool} {c : ServerConfig} {name : String}

/-- Nothing is found under a name that no configuration has. -/
theorem get?_eq_none_iff :
  k.get? name = none ↔ ∀ c ∈ k.configs, c.name ≠ name
  := by
  simp [get?, List.find?_eq_none]

/-- A configuration is found under its name if it is there. -/
theorem get?_eq_some_iff (h : k.Distinct) :
  k.get? name = some c ↔ c ∈ k.configs ∧ c.name = name
  := by
  constructor
  · intro hc
    use List.mem_of_find?_eq_some hc
    apply name_of_get? hc
  · rintro ⟨hc, rfl⟩
    cases hd : k.get? c.name with
    | none => apply absurd rfl (get?_eq_none_iff.mp hd c hc)
    | some d =>
        rw [List.inj_on_of_nodup_map h (List.mem_of_find?_eq_some hd) hc (name_of_get? hd)]

/-- Creating keeps the names apart. -/
theorem Distinct.create (h : k.Distinct) (hl : k.create cancelled c = .ok l) :
  l.Distinct
  := by
  obtain ⟨-, -, hc, rfl⟩ := create_eq_ok_iff.mp hl
  rw [Distinct, List.map_append, List.map_singleton, ← List.concat_eq_append,
    List.nodup_concat]
  constructor
  · rw [List.mem_map]
    rintro ⟨d, hd, hname⟩
    apply get?_eq_none_iff.mp hc d hd hname
  · apply h

/-- The configurations are listed, each once. -/
theorem toList_perm (k : Catalog) :
  k.toList.Perm k.configs
  := by
  apply List.mergeSort_perm

/-- The configurations are listed ascending by name. -/
theorem toList_pairwise (h : k.Distinct) :
  k.toList.Pairwise fun c d => c.name < d.name
  := by
  have hle : k.toList.Pairwise fun c d => decide (c.name ≤ d.name) = true := by
    apply List.pairwise_mergeSort
    · intro c d e hcd hde
      apply decide_eq_true (String.le_trans (of_decide_eq_true hcd) (of_decide_eq_true hde))
    · intro c d
      simpa using String.le_total c.name d.name
  have hne : k.toList.Pairwise fun c d => c.name ≠ d.name := by
    apply List.pairwise_map.mp ((k.toList_perm.map _).nodup_iff.mpr h)
  apply hle.imp₂ _ hne
  intro c d hcd hne
  apply Std.lt_of_le_of_ne (of_decide_eq_true hcd) hne

/-! ### Catalogs with the same configurations -/

/-- The configurations are the same, and no name occurs twice. -/
def Same (k l : Catalog) : Prop := k.configs.Perm l.configs ∧ k.Distinct

namespace Same

/-- Names are apart in both. -/
theorem distinct_right (h : k.Same l) :
  l.Distinct
  := by
  apply (h.1.map _).nodup_iff.mp h.2

/-- The same is found. -/
theorem get? (h : k.Same l) (name : String) :
  k.get? name = l.get? name
  := by
  apply Option.ext
  intro c
  rw [get?_eq_some_iff h.2, get?_eq_some_iff h.distinct_right, h.1.mem_iff]

/-- The same is listed. -/
theorem toList (h : k.Same l) :
  k.toList = l.toList
  := by
  apply List.Perm.eq_of_pairwise _ (toList_pairwise h.2) (toList_pairwise h.distinct_right)
  · apply (k.toList_perm.trans h.1).trans l.toList_perm.symm
  · intro c d _ _ hcd hdc
    apply absurd hdc (String.lt_asymm hcd)

/-- As many configurations are there. -/
theorem size (h : k.Same l) :
  k.size = l.size
  := by
  apply h.1.length_eq

/-- The same can be created, and then the configurations are the same again. -/
theorem create (h : k.Same l) (cancelled : Bool) (c : ServerConfig) :
  (∃ e, k.create cancelled c = .error e ∧ l.create cancelled c = .error e) ∨
    ∃ k' l', k.create cancelled c = .ok k' ∧ l.create cancelled c = .ok l' ∧ k'.Same l'
  := by
  have hl : l.create cancelled c = (k.create cancelled c).map fun _ => ⟨l.configs ++ [c]⟩ := by
    rw [Catalog.create, Catalog.create, h.get?]
    cases cancelled with
    | true => rfl
    | false =>
        cases refusal? c with
        | some e => rfl
        | none =>
            cases l.get? c.name with
            | some d => rfl
            | none => rfl
  cases hk : k.create cancelled c with
  | error e =>
      left
      use e, rfl
      rw [hl, hk]
      rfl
  | ok k' =>
      right
      use k', ⟨l.configs ++ [c]⟩, rfl
      constructor
      · rw [hl, hk]
        rfl
      · have hd := h.2.create hk
        obtain ⟨-, -, -, rfl⟩ := create_eq_ok_iff.mp hk
        exact ⟨h.1.append_right [c], hd⟩

end Same

end Catalog

/-! ### Calls -/

/-- A call on the catalog of a single process. -/
inductive Call where
  /-- A call on its configurations. -/
  | store (call : StoreCall)
  /-- How many there are. -/
  | size

/-- What a catalog replies. -/
inductive Reply where
  | store (reply : StoreReply)
  | counted (n : Nat)

/-- Makes a call on the catalog of a single process. -/
def ask (settings : Settings) : Call → StateM Local Reply
  | .store call => do return .store (← serveLocal settings call)
  | .size => do return .counted (← get).catalog.size

/-- The configuration that a call has created, as its reply says. -/
def created? : Call → Reply → Option ServerConfig
  | .store (.create _ c), .store (.created (.ok ())) => some c
  | _, _ => none

/-- Whether a reply is an error. -/
def Reply.isError : Reply → Bool
  | .store (.created (.error _)) => true
  | .store (.found (.error _)) => true
  | .store (.listed (.error _)) => true
  | _ => false

/-- The configurations that calls have created, in their order. -/
def createdIn {σ : Type} (turns : List (Turn Call Reply σ)) : List ServerConfig :=
  turns.filterMap fun t => created? t.request t.reply

/-- The creations among calls, each with whether its caller gave up. -/
def creations (calls : List Call) : List (Bool × ServerConfig) :=
  calls.filterMap fun
    | .store (.create cancelled c) => some (cancelled, c)
    | _ => none

/-- The configuration that a call is to create under a name, if nothing but the name being
taken can stand against it. -/
def acceptable? (name : String) : Call → Option ServerConfig
  | .store (.create false c) => if c.name = name ∧ Text.trim name ≠ "" then some c else none
  | _ => none

/-! ### Answers from a log -/

/-- What comes of a creation where the configurations of a log have been created before. -/
structure CreationResult (log : List ServerConfig) (cancelled : Bool) (c : ServerConfig)
    (result : Except StoreFailure Unit) : Prop where
  /-- The name is not blank, and is new. -/
  created : result = .ok () ↔
    cancelled = false ∧ Text.trim c.name ≠ "" ∧ ∀ d ∈ log, d.name ≠ c.name
  /-- The caller gave up. -/
  gaveUp : result = .error .cancelled ↔ cancelled = true
  /-- The name is blank. -/
  invalid : result = .error (.invalid "name must be non-empty") ↔
    cancelled = false ∧ Text.trim c.name = ""
  /-- The name is taken. -/
  taken : result = .error (.nameTaken c.name) ↔
    cancelled = false ∧ Text.trim c.name ≠ "" ∧ ∃ d ∈ log, d.name = c.name

/-- A reply to a call is the one that a log of created configurations demands. -/
def Conforms (log : List ServerConfig) : Call → Reply → Prop
  | .store (.create cancelled c), reply =>
    ∃ result, reply = .store (.created result) ∧ CreationResult log cancelled c result
  | .store (.get name), reply =>
    ∃ found, reply = .store (.found (.ok found)) ∧ ∀ c, found = some c ↔ c ∈ log ∧ c.name = name
  | .store .list, reply =>
    ∃ listed, reply = .store (.listed (.ok listed)) ∧ listed.Perm log ∧
      listed.Pairwise fun c d => Text.utf8 c.name < Text.utf8 d.name
  | .size, reply => reply = .counted log.length

section

variable {settings : Settings} {s x : Local} {k : Catalog} {cancelled : Bool} {c : ServerConfig}

/-- What comes of a creation shows in the configurations of the catalog. -/
theorem creationResult_create (k : Catalog) (cancelled : Bool) (c : ServerConfig) :
  CreationResult k.configs cancelled c ((k.create cancelled c).map fun _ => ())
  := by
  rw [Catalog.create]
  cases cancelled with
  | true => constructor <;> simp [Except.map]
  | false =>
      rw [refusal?_eq]
      by_cases ht : Text.trim c.name = ""
      · constructor <;> simp [ht, Except.map]
      cases hg : k.get? c.name with
      | none =>
          have hn := Catalog.get?_eq_none_iff.mp hg
          constructor <;> simp [ht, Except.map]
          · apply hn
          · apply hn
      | some d =>
          have hd : ∃ d ∈ k.configs, d.name = c.name :=
            ⟨d, List.mem_of_find?_eq_some hg, Catalog.name_of_get? hg⟩
          constructor <;> simp [ht, Except.map]
          · apply hd
          · apply hd

/-- A creation changes the catalog if it succeeds. -/
theorem ask_create (settings : Settings) (s : Local) (cancelled : Bool) (c : ServerConfig) :
  ask settings (.store (.create cancelled c)) s =
    match s.catalog.create cancelled c with
    | .ok catalog => (.store (.created (.ok ())), { s with catalog })
    | .error e => (.store (.created (.error e)), s)
  := by
  change (Reply.store (.created (Local.create cancelled c s).1), (Local.create cancelled c s).2) = _
  rw [Local.create]
  cases s.catalog.create cancelled c with
  | error e => rfl
  | ok l => rfl

/-- A call leaves everything as it is, or it is a creation that succeeds. -/
theorem ask_cases (settings : Settings) (s : Local) (call : Call) :
  (created? call (ask settings call s).1 = none ∧ (ask settings call s).2 = s) ∨
    ∃ cancelled c l, call = .store (.create cancelled c) ∧
      s.catalog.create cancelled c = .ok l ∧
      ask settings call s = (.store (.created (.ok ())), { s with catalog := l })
  := by
  cases call with
  | size => exact .inl ⟨rfl, rfl⟩
  | store call =>
      cases call with
      | get name => exact .inl ⟨rfl, rfl⟩
      | list => exact .inl ⟨rfl, rfl⟩
      | create cancelled c =>
          rw [ask_create]
          cases hc : s.catalog.create cancelled c with
          | error e => exact .inl ⟨rfl, rfl⟩
          | ok l => exact .inr ⟨cancelled, c, l, rfl, hc, rfl⟩

/-- Only a creation that succeeds changes the catalog, and adds its configuration. -/
theorem configs_ask (settings : Settings) (s : Local) (call : Call) :
  (ask settings call s).2.catalog.configs =
    s.catalog.configs ++ (created? call (ask settings call s).1).toList
  := by
  obtain ⟨hn, hs⟩ | ⟨cancelled, c, l, rfl, hc, hask⟩ := ask_cases settings s call
  · rw [hn, hs, Option.toList_none, List.append_nil]
  · obtain ⟨-, -, -, rfl⟩ := Catalog.create_eq_ok_iff.mp hc
    rw [hask]
    rfl

/-- A call keeps the names of a catalog apart. -/
theorem distinct_ask (h : s.catalog.Distinct) (call : Call) :
  (ask settings call s).2.catalog.Distinct
  := by
  obtain ⟨-, hs⟩ | ⟨cancelled, c, l, rfl, hc, hask⟩ := ask_cases settings s call
  · rw [hs]
    apply h
  · rw [hask]
    apply h.create hc

/-- A call that fails changes nothing. -/
theorem ask_of_isError {call : Call} (h : (ask settings call s).1.isError = true) :
  (ask settings call s).2 = s
  := by
  obtain ⟨-, hs⟩ | ⟨cancelled, c, l, rfl, hc, hask⟩ := ask_cases settings s call
  · apply hs
  · rw [hask] at h
    cases h

/-- A call is answered from the configurations of the catalog. -/
theorem conforms_ask (h : s.catalog.Distinct) (call : Call) :
  Conforms s.catalog.configs call (ask settings call s).1
  := by
  cases call with
  | size => rfl
  | store call =>
      cases call with
      | get name =>
          use s.catalog.get? name, rfl
          intro c
          apply Catalog.get?_eq_some_iff h
      | list =>
          use s.catalog.toList, rfl, s.catalog.toList_perm
          apply (Catalog.toList_pairwise h).imp
          intro c d hcd
          apply Text.utf8_lt hcd
      | create cancelled c =>
          rw [ask_create]
          have hr := creationResult_create s.catalog cancelled c
          cases hc : s.catalog.create cancelled c with
          | error e =>
              rw [hc] at hr
              exact ⟨_, rfl, hr⟩
          | ok l =>
              rw [hc] at hr
              exact ⟨_, rfl, hr⟩

/-- Catalogs with the same configurations reply alike, and have the same configurations behind
it. -/
theorem ask_same (h : s.catalog.Same x.catalog) (call : Call) :
  (ask settings call s).1 = (ask settings call x).1 ∧
    (ask settings call s).2.catalog.Same (ask settings call x).2.catalog
  := by
  cases call with
  | size =>
      change Reply.counted s.catalog.size = .counted x.catalog.size ∧ _
      rw [h.size]
      exact ⟨rfl, h⟩
  | store call =>
      cases call with
      | get name =>
          change Reply.store (.found (.ok (s.catalog.get? name))) =
            .store (.found (.ok (x.catalog.get? name))) ∧ _
          rw [h.get?]
          exact ⟨rfl, h⟩
      | list =>
          change Reply.store (.listed (.ok s.catalog.toList)) =
            .store (.listed (.ok x.catalog.toList)) ∧ _
          rw [h.toList]
          exact ⟨rfl, h⟩
      | create cancelled c =>
          rw [ask_create, ask_create]
          obtain ⟨e, hs, hx⟩ | ⟨k, l, hs, hx, hkl⟩ := h.create cancelled c
          · rw [hs, hx]
            exact ⟨rfl, h⟩
          · rw [hs, hx]
            exact ⟨rfl, hkl⟩

end

/-! ### Runs -/

/-- What is replied to the later calls of a run. -/
def laterReplies (settings : Settings) (s : Local) (calls later : List Call) : List Reply :=
  (history (ask settings) (reached (ask settings) s calls) later).map (·.reply)

section

variable {settings : Settings} {s x : Local} {calls : List Call}

/-- Under a name that is free, what can be created is. -/
theorem filter_created? (settings : Settings) (s : Local) (name : String) (call : Call) :
  (created? call (ask settings call s).1).filter (fun c => c.name = name) =
    if (s.catalog.get? name).isSome then none else acceptable? name call
  := by
  cases call with
  | size => exact (ite_self none).symm
  | store call =>
      cases call with
      | get _ => exact (ite_self none).symm
      | list => exact (ite_self none).symm
      | create cancelled c =>
          rw [ask_create]
          cases hc : s.catalog.create cancelled c with
          | ok l =>
              obtain ⟨rfl, hr, hg, -⟩ := Catalog.create_eq_ok_iff.mp hc
              have ht : Text.trim c.name ≠ "" := by
                simpa [refusal?_eq] using hr
              by_cases hname : c.name = name
              · subst hname
                simp [created?, acceptable?, hg, ht]
              · simp [created?, acceptable?, hname]
          | error e =>
              have hno : ¬ (cancelled = false ∧ Text.trim c.name ≠ "" ∧
                  s.catalog.get? c.name = none) := by
                rintro ⟨rfl, ht, hg⟩
                have hok := Catalog.create_eq_ok_iff.mpr
                  ⟨rfl, (refusal?_eq c).trans (if_neg ht), hg, rfl⟩
                rw [hc] at hok
                cases hok
              cases cancelled with
              | true => simp [created?, acceptable?]
              | false =>
                  by_cases hname : c.name = name
                  · subst hname
                    cases hg : s.catalog.get? c.name with
                    | some d => rfl
                    | none => simpa [created?, acceptable?, hg] using hno
                  · simp [created?, acceptable?, hname]

/-- A catalog is the log of what calls have created. -/
structure Logged (turns : List (Turn Call Reply Local)) (s : Local) : Prop where
  /-- The configurations are those that were created. -/
  configs : s.catalog.configs = createdIn turns
  /-- No name occurs twice. -/
  distinct : s.catalog.Distinct
  /-- Of each name the first configuration was created that could be. -/
  first : ∀ name, (createdIn turns).filter (fun c => c.name = name) =
    ((turns.map (·.request)).findSome? (acceptable? name)).toList

/-- One call more is logged. -/
theorem Logged.ask {turns : List (Turn Call Reply Local)} (h : Logged turns s) (call : Call) :
  Logged (turns ++ [⟨call, s, (ask settings call s).1, (ask settings call s).2⟩])
    (Store.ask settings call s).2
  := by
  have hc : createdIn (turns ++ [⟨call, s, (Store.ask settings call s).1,
      (Store.ask settings call s).2⟩]) =
      createdIn turns ++ (created? call (Store.ask settings call s).1).toList := by
    rw [createdIn, createdIn, List.filterMap_append]
    cases hc : created? call (Store.ask settings call s).1 with
    | none => simp [hc]
    | some c => simp [hc]
  constructor
  · rw [hc, configs_ask, h.configs]
  · apply distinct_ask h.distinct
  · intro name
    have hget : s.catalog.get? name = (turns.map (·.request)).findSome? (acceptable? name) := by
      rw [Catalog.get?, ← List.head?_filter, h.configs, h.first, Option.head?_toList]
    rw [hc, List.filter_append, h.first, ← Option.toList_filter, filter_created?, hget,
      List.map_append, List.findSome?_append]
    cases (turns.map (·.request)).findSome? (acceptable? name) with
    | none => simp
    | some c => simp

/-- A run is logged in its catalog. -/
theorem logged_run (settings : Settings) (capacity : Nat) (calls : List Call) :
  Logged (history (ask settings) (.ofCapacity capacity) calls)
    (reached (ask settings) (.ofCapacity capacity) calls)
  := by
  apply run_keeps
  · exact ⟨rfl, List.nodup_nil, fun _ => rfl⟩
  · intro call _ turns s h
    apply h.ask

/-- Where the configurations are the same, later calls are replied to alike. -/
theorem replies_of_same (h : s.catalog.Same x.catalog) (later : List Call) :
  (history (ask settings) s later).map (·.reply) = (history (ask settings) x later).map (·.reply)
  := by
  rw [← List.map_id ((history (ask settings) x later).map (·.reply))]
  apply replies_of_related (R := fun s x : Local => s.catalog.Same x.catalog) _ h
  intro call _ s x h
  apply ask_same h

/-- What a catalog takes of a creation. -/
def admitted (k : Catalog) (x : Bool × ServerConfig) : List ServerConfig :=
  match k.create x.1 x.2 with
  | .ok _ => [x.2]
  | .error _ => []

/-- A creation adds what the catalog takes of it. -/
theorem configs_create (settings : Settings) (s : Local) (cancelled : Bool) (c : ServerConfig) :
  (ask settings (.store (.create cancelled c)) s).2.catalog.configs =
    s.catalog.configs ++ admitted s.catalog (cancelled, c)
  := by
  rw [ask_create, admitted]
  cases hc : s.catalog.create cancelled c with
  | error e => exact (List.append_nil _).symm
  | ok l =>
      obtain ⟨-, -, -, rfl⟩ := Catalog.create_eq_ok_iff.mp hc
      rfl

/-- What is taken of a creation does not hang on creations of other names. -/
theorem admitted_create (settings : Settings) (s : Local) (cancelled : Bool) (c : ServerConfig)
    {x : Bool × ServerConfig} (hx : x.2.name ≠ c.name) :
  admitted (ask settings (.store (.create cancelled c)) s).2.catalog x = admitted s.catalog x
  := by
  rw [ask_create]
  cases hc : s.catalog.create cancelled c with
  | error e => rfl
  | ok l =>
      obtain ⟨-, -, -, rfl⟩ := Catalog.create_eq_ok_iff.mp hc
      have hg : (Catalog.mk (s.catalog.configs ++ [c])).get? x.2.name =
          s.catalog.get? x.2.name := by
        rw [Catalog.get?_concat, if_neg hx, Option.or_none]
      rw [admitted, admitted, Catalog.create, Catalog.create, hg]
      split_ifs
      · rfl
      · cases refusal? x.2 <;> rfl
      · cases refusal? x.2 <;> rfl

/-- Creations of different names add what the catalog takes of each of them. -/
theorem configs_reached (h : ((creations calls).map (·.2.name)).Nodup) :
  (reached (ask settings) s calls).catalog.configs =
    s.catalog.configs ++ (creations calls).flatMap (admitted s.catalog)
  := by
  induction calls generalizing s with
  | nil => exact (List.append_nil _).symm
  | cons call rest ih =>
      cases call with
      | size => apply ih h
      | store call =>
          cases call with
          | get name => apply ih h
          | list => apply ih h
          | create cancelled c =>
              have hcons : creations (.store (.create cancelled c) :: rest) =
                  (cancelled, c) :: creations rest := rfl
              rw [hcons] at h ⊢
              obtain ⟨hnew, hrest⟩ := List.nodup_cons.mp h
              have hlater : (creations rest).flatMap
                    (admitted (ask settings (.store (.create cancelled c)) s).2.catalog) =
                  (creations rest).flatMap (admitted s.catalog) := by
                apply List.flatMap_congr
                intro x hx
                apply admitted_create
                intro hname
                apply hnew
                exact List.mem_map.mpr ⟨x, hx, hname⟩
              rw [reached, ih hrest, configs_create, hlater, List.flatMap_cons, List.append_assoc]

end

/-- Calls on an empty catalog are answered from the log of the creations that succeeded, of each
name the first one that could.  A call that fails does not change what is replied later, and
neither does the order of creations of different names. -/
theorem first_writer_wins (settings : Settings) (capacity : Nat) (calls : List Call) :
  let start := Local.ofCapacity capacity
  let run := history (ask settings) start calls
  (∀ before t after, run = before ++ t :: after →
      Conforms (createdIn before) t.request t.reply) ∧
    (∀ name, (createdIn run).filter (fun c => c.name = name) =
      (calls.findSome? (acceptable? name)).toList) ∧
    (∀ call, (ask settings call (reached (ask settings) start calls)).1.isError = true →
      ∀ later, laterReplies settings start (calls ++ [call]) later =
        laterReplies settings start calls later) ∧
    ∀ xs ys, (creations xs).Perm (creations ys) → ((creations xs).map (·.2.name)).Nodup →
      ∀ later, laterReplies settings start (calls ++ xs) later =
        laterReplies settings start (calls ++ ys) later
  := by
  intro start run
  constructor
  · intro before t after h
    obtain ⟨earlier, rfl, ht, hreply⟩ := history_split h
    have hlog := logged_run settings capacity earlier
    rw [ht] at hlog
    rw [hreply, ← hlog.configs]
    apply conforms_ask hlog.distinct
  constructor
  · intro name
    rw [(logged_run settings capacity calls).first, map_request_history]
  constructor
  · intro call hfail later
    rw [laterReplies, laterReplies, reached_concat, ask_of_isError hfail]
  · intro xs ys hperm hxs later
    have hys : ((creations ys).map (·.2.name)).Nodup := (hperm.map _).nodup_iff.mp hxs
    apply replies_of_same
    constructor
    · rw [reached_append, reached_append, configs_reached hxs, configs_reached hys]
      apply (hperm.flatMap_right _).append_left
    · apply (logged_run settings capacity (calls ++ xs)).distinct

/-- A configuration without tools under a name. -/
def named (name : String) : ServerConfig := { bareConfig with name }

/-- Creates a configuration without tools under a name. -/
def creating (name : String) : Call := .store (.create false (named name))

/-- A name is taken for a second creation, which leaves no trace; and behind it two other
configurations are created in either order. -/
theorem first_writer_wins_twoOrders :
  (∃ t u, history (ask .standard) (.ofCapacity 1) [creating "m", creating "m"] = [t, u] ∧
      Conforms (createdIn [t]) u.request u.reply) ∧
    (ask .standard (creating "m")
        (reached (ask .standard) (.ofCapacity 1) [creating "m"])).1.isError = true ∧
    laterReplies .standard (.ofCapacity 1) [creating "m", creating "m"] [.store .list] =
      laterReplies .standard (.ofCapacity 1) [creating "m"] [.store .list] ∧
    (creations [creating "b", creating "a"]).Perm (creations [creating "a", creating "b"]) ∧
    ((creations [creating "b", creating "a"]).map (·.2.name)).Nodup ∧
    laterReplies .standard (.ofCapacity 1) [creating "m", creating "b", creating "a"]
        [.store .list, .size] =
      laterReplies .standard (.ofCapacity 1) [creating "m", creating "a", creating "b"]
        [.store .list, .size]
  := by
  have hfail : (ask .standard (creating "m")
      (reached (ask .standard) (.ofCapacity 1) [creating "m"])).1.isError = true := by
    decide
  have hperm : (creations [creating "b", creating "a"]).Perm
      (creations [creating "a", creating "b"]) := List.Perm.swap _ _ _
  have hnames : ((creations [creating "b", creating "a"]).map (·.2.name)).Nodup := by
    decide
  have htwo := first_writer_wins .standard 1 [creating "m", creating "m"]
  have hone := first_writer_wins .standard 1 [creating "m"]
  constructor
  · exact ⟨_, _, rfl, htwo.1 [_] _ [] rfl⟩
  · exact ⟨hfail, hone.2.2.1 _ hfail _, hperm, hnames, hone.2.2.2 _ _ hperm hnames _⟩

end Store
end ApiIntake
