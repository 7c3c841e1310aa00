import SailsProtocol.Fees.Allocation

/-!
# Reversing a generation

`reverseGeneration` lists the allocations of a confirmation and reverses them one after the
other. The reversal of an entry that is already reversed is refused by the unique key of the
ledger, and the refusal ends the loop, so the entries after it keep their allocation however
often the call is repeated.

`reversal_converges` : a call whose statements are answered succeeds, and leaves each
allocation of the generation with exactly one reversal of the opposite amount, if and only
if none of the entries is already reversed when its turn comes. `reversal_blocked` is a
generation of which one entry was reversed on its own.
-/

namespace Sails.Fees

open Async Numeric

variable {P : Platform}

/-! ## Well kept ledgers -/

/-- Entries are numbered, no two have one key, allocations are positive, and a reversal
offsets an allocation. -/
structure WellKept (ledger : List Entry) : Prop where
  ids : ∀ (n : ℕ) (e : Entry), ledger[n]? = some e → e.id = n
  keys : (ledger.map (·.key)).Nodup
  amounts : ∀ e ∈ ledger, e.kind = .ALLOCATION → 0 < e.amount ∧ toColumn e.amount = e.amount
  offsets : ∀ r ∈ ledger, r.kind = .REVERSAL →
    ∃ e ∈ ledger, e.kind = .ALLOCATION ∧ r.toEntryInput = e.reversal

/-- What may be inserted : an allocation, or the reversal of one. -/
def Fits (ledger : List Entry) (input : EntryInput) : Prop :=
  input.kind = .ALLOCATION ∨ ∃ e ∈ ledger, e.kind = .ALLOCATION ∧ input = e.reversal

namespace WellKept

variable {ledger ledger' : List Entry} {e e' : Entry}

theorem nil : WellKept [] :=
  ⟨nofun, List.nodup_nil, nofun, nofun⟩

theorem eq_of_id (h : WellKept ledger) (he : e ∈ ledger) (he' : e' ∈ ledger)
    (hid : e.id = e'.id) : e = e' := by
  obtain ⟨n, hn⟩ := List.getElem?_of_mem he
  obtain ⟨m, hm⟩ := List.getElem?_of_mem he'
  have hnm : n = m := by rw [← h.ids n e hn, ← h.ids m e' hm, hid]
  rw [hnm, hm] at hn
  exact (Option.some.inj hn).symm

theorem eq_of_key (h : WellKept ledger) (he : e ∈ ledger) (he' : e' ∈ ledger)
    (hkey : e.key = e'.key) : e = e' :=
  List.inj_on_of_nodup_map h.keys he he' hkey

/-- An entry is found by its id. -/
theorem find (h : WellKept ledger) (he : e ∈ ledger) :
    ledger.find? (·.id = e.id) = some e := by
  cases hfind : ledger.find? (·.id = e.id) with
  | none =>
    have hnot := List.find?_eq_none.mp hfind e he
    simp at hnot
  | some x =>
    have hid : x.id = e.id := by simpa using List.find?_some hfind
    rw [h.eq_of_id (List.mem_of_find?_eq_some hfind) he hid]

/-- The row of a reversal is the reversal itself. -/
theorem stored_reversal (h : WellKept ledger) (he : e ∈ ledger) (hkind : e.kind = .ALLOCATION) :
    e.reversal.stored = e.reversal ∧ e.reversal.stored.signed = true := by
  obtain ⟨hpos, hcolumn⟩ := h.amounts e he hkind
  have hamount : toColumn (-e.amount) = -e.amount := by rw [toColumn_neg, hcolumn]
  have hstored : e.reversal.stored = e.reversal := by
    rw [EntryInput.stored, Entry.reversal]
    simp only
    rw [hamount]
  refine ⟨hstored, ?_⟩
  rw [hstored]
  simp [EntryInput.signed, Entry.reversal, hpos]

/-- A fitting entry keeps the ledger. -/
theorem insertEntry (h : WellKept ledger) {input : EntryInput} (hfits : Fits ledger input)
    (hinsert : Fees.insertEntry ledger input = .ok ledger') : WellKept ledger' := by
  obtain ⟨rfl, hsigned, hkey⟩ := insertEntry_ok hinsert
  refine ⟨fun n x hx => ?_, ?_, fun x hx hkind => ?_, fun x hx hkind => ?_⟩
  · rw [List.getElem?_append] at hx
    split_ifs at hx with hn
    · exact h.ids n x hx
    · rw [List.getElem?_singleton] at hx
      split_ifs at hx with hzero
      obtain rfl := Option.some.inj hx
      change ledger.length = n
      omega
  · rw [List.map_append, List.map_singleton, List.nodup_append]
    refine ⟨h.keys, List.nodup_singleton _, ?_⟩
    rintro k hk k' hk' rfl
    obtain ⟨x, hx, rfl⟩ := List.mem_map.mp hk
    exact hkey x hx (List.mem_singleton.mp hk')
  · rcases List.mem_append.mp hx with hx | hx
    · exact h.amounts x hx hkind
    · obtain rfl := List.mem_singleton.mp hx
      have hpos : 0 < toColumn input.amount := by
        have hinput : input.stored.kind = .ALLOCATION := hkind
        rw [EntryInput.signed, hinput] at hsigned
        exact of_decide_eq_true hsigned
      exact ⟨hpos, toColumn_toColumn _⟩
  · rcases List.mem_append.mp hx with hx | hx
    · obtain ⟨o, ho, hrest⟩ := h.offsets x hx hkind
      exact ⟨o, List.mem_append_left _ ho, hrest⟩
    · obtain rfl := List.mem_singleton.mp hx
      rcases hfits with halloc | ⟨o, ho, hokind, rfl⟩
      · rw [show input.kind = .REVERSAL from hkind] at halloc
        cases halloc
      · exact ⟨o, List.mem_append_left _ ho, hokind, (h.stored_reversal ho hokind).1⟩

/-- A batch of fitting entries keeps the ledger. -/
theorem insertEntries : ∀ {inputs : List EntryInput} {ledger ledger' : List Entry},
    WellKept ledger → (∀ input ∈ inputs, Fits ledger input) →
      Fees.insertEntries ledger inputs = .ok ledger' → WellKept ledger'
  | [], ledger, ledger', h, _, hinsert => by
    obtain rfl := Except.ok.inj hinsert
    exact h
  | input :: inputs, ledger, ledger', h, hfits, hinsert => by
    rw [Fees.insertEntries, List.foldlM_cons] at hinsert
    cases hfirst : Fees.insertEntry ledger input with
    | error err =>
      rw [hfirst] at hinsert
      cases hinsert
    | ok middle =>
      rw [hfirst] at hinsert
      refine insertEntries (h.insertEntry (hfits input List.mem_cons_self) hfirst) ?_ hinsert
      obtain ⟨rfl, -, -⟩ := insertEntry_ok hfirst
      intro x hx
      rcases hfits x (List.mem_cons_of_mem _ hx) with hkind | ⟨o, ho, hrest⟩
      · exact Or.inl hkind
      · exact Or.inr ⟨o, List.mem_append_left _ ho, hrest⟩

end WellKept

/-- The entry has exactly one reversal, of the opposite amount. -/
def ReversedOnce (ledger : List Entry) (e : Entry) : Prop :=
  ∃ r : Entry, ledger.filter (fun x => x.kind = .REVERSAL ∧ x.reversalOfId = some e.id) = [r] ∧
    r.amount = -e.amount

/-- Some row reverses the entry of this number. -/
def isReversed (ledger : List Entry) (id : Option ℕ) : Bool :=
  ledger.any fun x => x.kind = .REVERSAL ∧ x.reversalOfId = id

namespace WellKept

variable {ledger : List Entry} {e : Entry}

/-- An allocation is reversed when its reversal is there. -/
theorem isReversed_iff (h : WellKept ledger) (he : e ∈ ledger) (hkind : e.kind = .ALLOCATION) :
    isReversed ledger (some e.id) = true ↔ ∃ x ∈ ledger, x.key = e.reversal.key := by
  simp only [isReversed, List.any_eq_true, decide_eq_true_eq]
  constructor
  · rintro ⟨x, hx, hxkind, hxid⟩
    obtain ⟨o, ho, -, hxo⟩ := h.offsets x hx hxkind
    have hid : o.id = e.id := by
      rw [hxo] at hxid
      exact Option.some.inj hxid
    rw [h.eq_of_id ho he hid] at hxo
    exact ⟨x, hx, congrArg EntryInput.key hxo⟩
  · rintro ⟨x, hx, hkey⟩
    have hxkind : x.kind = .REVERSAL := congrArg (fun k => k.2.2) hkey
    obtain ⟨o, ho, hokind, hxo⟩ := h.offsets x hx hxkind
    have hsame : o.key = e.key := by
      rw [hxo] at hkey
      have hfirst := congrArg Prod.fst hkey
      have hsecond := congrArg (fun k => k.2.1) hkey
      exact Prod.ext hfirst (Prod.ext hsecond (hokind.trans hkind.symm))
    refine ⟨x, hx, hxkind, ?_⟩
    rw [hxo, h.eq_of_key ho he hsame]
    rfl

/-- An entry that is reversed is reversed once. -/
theorem reversedOnce (h : WellKept ledger) (he : e ∈ ledger)
    (hreversed : isReversed ledger (some e.id) = true) : ReversedOnce ledger e := by
  have hrow : ∀ x ∈ ledger, x.kind = .REVERSAL → x.reversalOfId = some e.id →
      x.toEntryInput = e.reversal := by
    intro x hx hxkind hxid
    obtain ⟨o, ho, -, hxo⟩ := h.offsets x hx hxkind
    have hid : o.id = e.id := by
      rw [hxo] at hxid
      exact Option.some.inj hxid
    rwa [h.eq_of_id ho he hid] at hxo
  obtain ⟨x, hx, hxe⟩ := List.any_eq_true.mp hreversed
  obtain ⟨hxkind, hxid⟩ := of_decide_eq_true hxe
  refine ⟨x, ?_, congrArg EntryInput.amount (hrow x hx hxkind hxid)⟩
  have hmem : ∀ y, y ∈ ledger.filter (fun x => x.kind = .REVERSAL ∧ x.reversalOfId = some e.id) ↔
      y ∈ [x] := by
    intro y
    rw [List.mem_filter, List.mem_singleton, decide_eq_true_eq]
    constructor
    · rintro ⟨hy, hykind, hyid⟩
      refine h.eq_of_key hy hx (congrArg EntryInput.key ?_)
      rw [hrow y hy hykind hyid, hrow x hx hxkind hxid]
    · rintro rfl
      exact ⟨hx, hxkind, hxid⟩
  have hnodup : (ledger.filter (fun x => x.kind = .REVERSAL ∧ x.reversalOfId = some e.id)).Nodup :=
    (List.Nodup.of_map _ h.keys).filter _
  exact List.perm_singleton.mp
    ((List.perm_ext_iff_of_nodup hnodup (List.nodup_singleton x)).mpr hmem)

end WellKept

/-! ## What is observed -/

/-- What a reversal sees. -/
inductive Traced where
  | fault
  | listed (entries : List Entry)
  | found (e : Entry)
  | missing
  | reversed (id : Option ℕ)
  | refused
  deriving DecidableEq

/-- What a call tells a reversal. -/
def traced : (q : Call) → FeeStore → Except FeeError (Answer q) → List Traced
  | .findAllocations _, _, .ok entries => [.listed entries]
  | .findEntry _, _, .ok (some e) => [.found e]
  | .findEntry _, _, .ok none => [.missing]
  | .commitReversal entry, _, .ok _ => [.reversed entry.reversalOfId]
  | .commitReversal _, _, .error .fault => [.fault]
  | .commitReversal _, _, .error _ => [.refused]
  | _, _, .error _ => [.fault]
  | _, _, _ => []

/-- The requests about the fee, as a reversal sees them. -/
abbrev reversals (P : Platform) : System Answer FeeError Unit FeeStore FeeEnv FeeReq Traced :=
  feeSystem P traced

/-- The rows and the requests about them. -/
abbrev Reversing := Config Answer FeeError Unit FeeStore FeeReq Traced

/-- What call `i` returned, once it has ended. -/
def outcome (c : Reversing) (i : ℕ) : Option (Except FeeError Unit) :=
  match c.threads[i]? with
  | some ⟨_, .ret r, _⟩ => some r
  | _ => none

/-- Every statement of call `i` is answered. -/
def AnsweredTo (i : ℕ) (_ : Reversing) : Action FeeEnv FeeReq → Prop
  | .run j env => j = i → env.fate = .answered
  | _ => True

/-- The entry the statement is about to reverse is not reversed yet. -/
def Call.unreversed (ledger : List Entry) : Call → Bool
  | .commitReversal entry => !isReversed ledger entry.reversalOfId
  | _ => true

/-- No entry is already reversed when call `i` comes to it. -/
def Unreversed (i : ℕ) (c : Reversing) : Action FeeEnv FeeReq → Prop
  | .run j _ => j = i → (c.next i).all (Call.unreversed c.store.ledger) = true
  | _ => True

/-- Every allocation of the generation in the first ledger has in the second exactly one
reversal, of the opposite amount. -/
def GenerationReversed (confirmationEvidenceId : ℕ) (ledger ledger' : List Entry) : Prop :=
  ∀ e ∈ ledger, e.kind = .ALLOCATION → e.confirmationEvidenceId = confirmationEvidenceId →
    ReversedOnce ledger' e

/-! ## Guards -/

/-- An entry is read and reversed after the generation is listed, and what is written is
made from the row that was read. -/
def ReversalGuard (req : FeeReq) (log : List Traced) : Call → Prop
  | .findAllocations id => req = .reverseGeneration id
  | .findEntry id => ∀ g, req = .reverseGeneration g →
      ∃ entries, Traced.listed entries ∈ log ∧ ∃ e ∈ entries, e.id = id
  | .commitReversal entry =>
    ∃ e, Traced.found e ∈ log ∧ e.kind = .ALLOCATION ∧ entry = e.reversal
  | .commitAllocation entries =>
    (∀ g, req ≠ .reverseGeneration g) ∧ ∀ e ∈ entries, e.kind = .ALLOCATION
  | _ => ∀ g, req ≠ .reverseGeneration g

/-- What ends a reversal with an error. -/
def Traced.stops : Traced → Bool
  | .fault => true
  | .missing => true
  | .refused => true
  | .found e => e.kind ≠ .ALLOCATION
  | _ => false

/-- Something that stops the loop was seen. -/
def Stuck (log : List Traced) : Prop := ∃ o ∈ log, o.stops = true

/-- What a reversal of a generation has done when it ends. -/
def ReversalResult (req : FeeReq) (log : List Traced) (r : Except FeeError Unit) : Prop :=
  ∀ g, req = .reverseGeneration g →
    match r with
    | .ok _ => Traced.refused ∉ log ∧ ∃ entries, Traced.listed entries ∈ log ∧
        ∀ e ∈ entries, Traced.reversed (some e.id) ∈ log
    | .error _ => Stuck log

section Guards

/-- The answers of the model. -/
abbrev reversalCan (P : Platform) := Config.Answerable (reversals P) fun _ => True

/-- One reversal : it logs the number of its entry, or what stopped it. -/
theorem reverseEntry_guarded {req : FeeReq} {id : ℕ} {log : List Traced}
    (hid : ∀ g, req = .reverseGeneration g →
      ∃ entries, Traced.listed entries ∈ log ∧ ∃ e ∈ entries, e.id = id) :
    (reverseEntry id).Guarded (reversalCan P) traced (ReversalGuard req)
      (fun log' r => match r with
        | .ok _ => Traced.reversed (some id) ∈ log' ∧ (∀ o ∈ log, o ∈ log') ∧
            (Traced.refused ∈ log' → Traced.refused ∈ log)
        | .error _ => Stuck log') log := by
  refine (Prog.guarded_bind _ _ _).mpr ⟨hid, fun s r hr => ?_⟩
  rcases r with e | _ | original
  · exact ⟨.fault, List.mem_cons_self, rfl⟩
  · exact ⟨.missing, List.mem_cons_self, rfl⟩
  · have hfound : original.id = id := by
      obtain ⟨-, env, henv⟩ := hr
      have hrun := run_of_exec_ok henv
      rw [show (reversals P).exec = Call.exec P from rfl, hrun] at henv
      simpa using List.find?_some (Except.ok.inj henv)
    refine (Prog.guarded_bind _ _ _).mpr ((Prog.guarded_orThrow _ _).mpr ⟨?_, nofun⟩)
    intro _ hsome
    cases hsome
    refine (Prog.guarded_bind _ _ _).mpr
      ((Prog.guarded_require _ _).mpr ⟨fun hk => ?_, fun hk => ?_⟩)
    · have hkind : original.kind = .ALLOCATION := by simpa using hk
      refine ⟨⟨original, List.mem_cons_self, hkind, rfl⟩, fun s' r' _ => ?_⟩
      cases r' with
      | ok u =>
        refine ⟨?_, fun o ho => by simp [traced, ho], ?_⟩
        · rw [← hfound]
          exact List.mem_cons_self
        · simp [traced]
      | error e =>
        by_cases hfault : e = .fault
        · subst hfault
          exact ⟨.fault, List.mem_cons_self, rfl⟩
        · refine ⟨.refused, ?_, rfl⟩
          cases e <;> first | exact List.mem_cons_self | exact absurd rfl hfault
    · have hkind : original.kind ≠ .ALLOCATION := by simpa using hk
      exact ⟨.found original, List.mem_cons_self, by simpa [Traced.stops] using hkind⟩

/-- The loop over what is left of the list. -/
theorem reverseAll_guarded {g : ℕ} {entries : List Entry} : ∀ (rest : List Entry) {log : List Traced},
    Traced.listed entries ∈ log → (∀ e ∈ rest, e ∈ entries) → Traced.refused ∉ log →
      (Prog.forEach rest fun entry => reverseEntry entry.id).Guarded (reversalCan P) traced
        (ReversalGuard (.reverseGeneration g))
        (fun log' r => match r with
          | .ok _ => Traced.refused ∉ log' ∧ (∀ o ∈ log, o ∈ log') ∧
              ∀ e ∈ rest, Traced.reversed (some e.id) ∈ log'
          | .error _ => Stuck log') log
  | [], log, _, _, hrefused => ⟨hrefused, fun _ ho => ho, nofun⟩
  | e :: rest, log, hlisted, hrest, hrefused => by
    have hid : ∀ g', FeeReq.reverseGeneration g = .reverseGeneration g' →
        ∃ entries, Traced.listed entries ∈ log ∧ ∃ x ∈ entries, x.id = e.id :=
      fun _ _ => ⟨entries, hlisted, e, hrest e List.mem_cons_self, rfl⟩
    refine (Prog.guarded_bind _ _ _).mpr ((reverseEntry_guarded hid).mono fun log' r hr => ?_)
    cases r with
    | error err => exact hr
    | ok u =>
      obtain ⟨hdone, hgrow, hnot⟩ := hr
      refine (reverseAll_guarded rest (hgrow _ hlisted)
        (fun x hx => hrest x (List.mem_cons_of_mem e hx)) fun h => hrefused (hnot h)).mono
        fun log'' r' hr' => ?_
      cases r' with
      | error err => exact hr'
      | ok u =>
        obtain ⟨hrefused', hgrow', hall⟩ := hr'
        refine ⟨hrefused', fun o ho => hgrow' o (hgrow o ho), ?_⟩
        rw [List.forall_mem_cons]
        exact ⟨hgrow' _ hdone, hall⟩

/-- The loop reverses what was listed, in order, until it is stopped. -/
theorem reverseGeneration_guarded (g : ℕ) :
    (reverseGeneration g).Guarded (reversalCan P) traced (ReversalGuard (.reverseGeneration g))
      (ReversalResult (.reverseGeneration g)) [] := by
  refine (Prog.guarded_bind _ _ _).mpr ⟨rfl, fun s r _ => ?_⟩
  cases r with
  | error e => exact fun _ _ => ⟨.fault, List.mem_cons_self, rfl⟩
  | ok entries =>
    refine (@reverseAll_guarded P g entries entries _ List.mem_cons_self (fun _ he => he)
      (by simp)).mono fun log' r hr => ?_
    intro _ _
    cases r with
    | error e => exact hr
    | ok u => exact ⟨hr.1, entries, hr.2.1 _ List.mem_cons_self, hr.2.2⟩

/-- `allocate` writes allocations only. -/
theorem allocate_kinds :
    (allocate P).Calls (reversalCan P) traced (ReversalGuard .allocate) [] := by
  refine Prog.Calls.perform_bind nofun fun _ found _ => ?_
  refine Prog.Calls.orThrow_bind fun obligation _ => ?_
  refine Prog.Calls.require_bind fun _ => ?_
  refine Prog.Calls.orThrow_bind fun fee _ => Prog.Calls.orThrow_bind fun asset _ => ?_
  refine Prog.Calls.perform_bind nofun fun _ _ _ => ?_
  refine Prog.Calls.perform_bind nofun fun _ evidence _ => ?_
  refine Prog.Calls.orThrow_bind fun confirmation _ => ?_
  refine Prog.Calls.orThrow_bind fun policyId _ => ?_
  refine Prog.Calls.perform_bind nofun fun _ recipients _ => ?_
  refine Prog.Calls.require_bind fun _ => ?_
  cases hentries : entitlements fee asset P.railScope confirmation.id policyId recipients with
  | error e => trivial
  | ok entries =>
    exact Prog.calls_perform ⟨nofun, fun e he => (mem_entitlements hentries e he).2⟩

/-- Every request meets its guards. -/
theorem reversal_guards (req : FeeReq) :
    (req.prog P).Guarded (reversalCan P) traced (ReversalGuard req) (ReversalResult req) [] := by
  by_cases hreverses : req.reverses = true
  · cases req with
    | reverseGeneration g => exact reverseGeneration_guarded g
    | reverseEntry id =>
      have hid : ∀ g, FeeReq.reverseEntry id = .reverseGeneration g →
          ∃ entries, Traced.listed entries ∈ ([] : List Traced) ∧ ∃ e ∈ entries, e.id = id := nofun
      exact (reverseEntry_guarded hid).mono fun _ _ _ => nofun
    | _ => cases hreverses
  · have hne : ∀ g, req ≠ .reverseGeneration g := by
      rintro g rfl
      exact hreverses rfl
    have hcalls : (req.prog P).Calls (reversalCan P) traced (ReversalGuard req) [] := by
      by_cases hreq : req = .allocate
      · subst hreq
        exact allocate_kinds
      · refine (prog_makes req).calls (G := ReversalGuard req) fun q log hmay => ?_
        cases q with
        | findAllocations id => exact absurd hmay hreverses
        | findEntry id => exact absurd hmay hreverses
        | commitReversal entry => exact absurd hmay.2 hreverses
        | commitAllocation entries => exact absurd hmay hreq
        | _ => exact hne
    exact hcalls.mono fun _ _ _ g hg => absurd hg (hne g)

end Guards

/-! ## What a call does to the ledger -/

section Ledger

variable {q : Call} {env : FeeEnv} {s s' : FeeStore}

/-- An effect deletes no entry. -/
theorem Effect.ledger_grows (h : Effect q env s s') : ∀ e ∈ s.ledger, e ∈ s'.ledger := by
  intro e he
  cases h with
  | allocate hinsert =>
    obtain ⟨⟨new, rfl, -⟩, -⟩ := insertEntries_ok hinsert
    exact List.mem_append_left _ he
  | reverse hinsert =>
    obtain ⟨⟨new, rfl, -⟩, -⟩ := insertEntries_ok hinsert
    exact List.mem_append_left _ he
  | _ => exact he

theorem ledger_grows (q : Call) (env : FeeEnv) (s : FeeStore) :
    ∀ e ∈ s.ledger, e ∈ (q.exec P env s).2.ledger := by
  intro e he
  rcases exec_effect P q env s with heq | heff
  · rw [heq]
    exact he
  · exact heff.ledger_grows e he

theorem isReversed_grows {ledger ledger' : List Entry} (h : ∀ e ∈ ledger, e ∈ ledger')
    {id : Option ℕ} (hid : isReversed ledger id = true) : isReversed ledger' id = true := by
  obtain ⟨x, hx, hxe⟩ := List.any_eq_true.mp hid
  exact List.any_eq_true.mpr ⟨x, h x hx, hxe⟩

/-- A guarded call keeps the ledger. -/
theorem Effect.wellKept {req : FeeReq} {log : List Traced} (heff : Effect q env s s')
    (h : WellKept s.ledger) (hguard : ReversalGuard req log q)
    (hfound : ∀ e, Traced.found e ∈ log → e ∈ s.ledger) : WellKept s'.ledger := by
  cases heff with
  | allocate hinsert =>
    exact h.insertEntries (fun input hinput => Or.inl (hguard.2 input hinput)) hinsert
  | reverse hinsert =>
    refine h.insertEntries (fun input hinput => ?_) hinsert
    obtain rfl := List.mem_singleton.mp hinput
    obtain ⟨e, he, hkind, hentry⟩ := hguard
    exact Or.inr ⟨e, hfound e he, hkind, hentry⟩
  | _ => exact h

/-- An answered reversal : it is refused if the entry is already reversed. -/
theorem run_commitReversal {e : Entry} (h : WellKept s.ledger) (he : e ∈ s.ledger)
    (hkind : e.kind = .ALLOCATION) :
    ((Call.commitReversal e.reversal).run P env s).1 =
      if isReversed s.ledger (some e.id) then .error .uniqueConstraint else .ok () := by
  have hsigned := (h.stored_reversal he hkind).2
  have hiff := h.isReversed_iff he hkind
  have hinsert : insertEntries s.ledger [e.reversal] = insertEntry s.ledger e.reversal := by
    cases hone : insertEntry s.ledger e.reversal <;>
      simp [insertEntries, hone, pure, Except.pure, bind, Except.bind]
  rw [Call.run, FeeStore.insert, hinsert, insertEntry, if_neg (by simp [hsigned])]
  by_cases hr : isReversed s.ledger (some e.id) = true
  · obtain ⟨x, hx, hkey⟩ := hiff.mp hr
    have hany : s.ledger.any (·.key == e.reversal.key) = true :=
      List.any_eq_true.mpr ⟨x, hx, by simp [hkey]⟩
    rw [if_pos hany, if_pos hr]
  · have hany : ¬ s.ledger.any (·.key == e.reversal.key) = true := by
      intro hany
      obtain ⟨x, hx, hkey⟩ := List.any_eq_true.mp hany
      exact hr (hiff.mpr ⟨x, hx, by simpa using hkey⟩)
    rw [if_neg hany, if_neg hr]

/-- What a listing shows. -/
theorem listed_of_traced {entries : List Entry}
    (h : Traced.listed entries ∈ traced q s (q.exec P env s).1) :
    ∃ id, q = .findAllocations id ∧
      entries = s.ledger.filter fun e => e.confirmationEvidenceId = id ∧ e.kind = .ALLOCATION := by
  cases q with
  | findAllocations id =>
    rcases hr : ((Call.findAllocations id).exec P env s).1 with e | l <;> rw [hr] at h
    · simp [traced] at h
    · have hrun := run_of_exec_ok hr
      rw [hrun] at hr
      refine ⟨id, rfl, ?_⟩
      rw [Traced.listed.inj (List.mem_singleton.mp h)]
      exact (Except.ok.inj hr).symm
  | findEntry id =>
    rcases hr : ((Call.findEntry id).exec P env s).1 with e | _ | e <;> rw [hr] at h <;>
      simp [traced] at h
  | commitReversal entry =>
    rcases hr : ((Call.commitReversal entry).exec P env s).1 with (_ | _) | e <;> rw [hr] at h <;>
      simp [traced] at h
  | _ =>
    rcases hr : (Call.exec P _ env s).1 with e | a <;> rw [hr] at h <;> simp [traced] at h

/-- An entry that was found is in the ledger. -/
theorem found_of_traced {e : Entry} (h : Traced.found e ∈ traced q s (q.exec P env s).1) :
    ∃ id, q = .findEntry id ∧ s.ledger.find? (·.id = id) = some e := by
  cases q with
  | findEntry id =>
    rcases hr : ((Call.findEntry id).exec P env s).1 with err | _ | x <;> rw [hr] at h
    · simp [traced] at h
    · simp [traced] at h
    · have hrun := run_of_exec_ok hr
      rw [hrun] at hr
      refine ⟨id, rfl, ?_⟩
      rw [Traced.found.inj (List.mem_singleton.mp h)]
      exact Except.ok.inj hr
  | findAllocations id =>
    rcases hr : ((Call.findAllocations id).exec P env s).1 with err | l <;> rw [hr] at h <;>
      simp [traced] at h
  | commitReversal entry =>
    rcases hr : ((Call.commitReversal entry).exec P env s).1 with (_ | _) | x <;> rw [hr] at h <;>
      simp [traced] at h
  | _ =>
    rcases hr : (Call.exec P _ env s).1 with err | a <;> rw [hr] at h <;> simp [traced] at h

/-- A reversal that was answered is in the ledger. -/
theorem reversed_of_traced {req : FeeReq} {log : List Traced} {id : Option ℕ}
    (hguard : ReversalGuard req log q)
    (h : Traced.reversed id ∈ traced q s (q.exec P env s).1) :
    isReversed (q.exec P env s).2.ledger id = true := by
  cases q with
  | commitReversal entry =>
    rcases hr : ((Call.commitReversal entry).exec P env s).1 with (_ | _) | x <;> rw [hr] at h
    case ok =>
      have hrun := run_of_exec_ok hr
      rw [hrun, Call.run, FeeStore.insert] at hr ⊢
      cases hinsert : insertEntries s.ledger [entry] with
      | error err =>
        rw [hinsert] at hr
        cases hr
      | ok ledger =>
        obtain ⟨⟨new, rfl, hnew⟩, -⟩ := insertEntries_ok hinsert
        obtain ⟨e, -, -, rfl⟩ := hguard
        obtain ⟨x, rfl⟩ : ∃ x, new = [x] := by
          have hlength := congrArg List.length hnew
          rw [List.length_map] at hlength
          exact List.length_eq_one_iff.mp hlength
        have hx : x.toEntryInput = e.reversal.stored := List.singleton_inj.mp hnew
        have hid : id = some e.id := Traced.reversed.inj (List.mem_singleton.mp h)
        refine List.any_eq_true.mpr ⟨x, List.mem_append_right _ (List.mem_singleton_self x), ?_⟩
        rw [decide_eq_true_eq, hx, hid]
        exact ⟨rfl, rfl⟩
    all_goals simp [traced] at h
  | findAllocations id =>
    rcases hr : ((Call.findAllocations id).exec P env s).1 with err | l <;> rw [hr] at h <;>
      simp [traced] at h
  | findEntry id =>
    rcases hr : ((Call.findEntry id).exec P env s).1 with err | _ | x <;> rw [hr] at h <;>
      simp [traced] at h
  | _ =>
    rcases hr : (Call.exec P _ env s).1 with err | a <;> rw [hr] at h <;> simp [traced] at h

end Ledger

/-! ## Runs -/

/-- The ledger is well kept, and what was listed, found or reversed is in it. -/
structure Traceable (c : Reversing) : Prop where
  wellKept : WellKept c.store.ledger
  listed : ∀ j entries, Traced.listed entries ∈ c.own j → ∀ e ∈ entries,
    e ∈ c.store.ledger ∧ e.kind = .ALLOCATION
  found : ∀ j e, Traced.found e ∈ c.own j → e ∈ c.store.ledger
  reversed : ∀ j id, Traced.reversed id ∈ c.own j → isReversed c.store.ledger id = true

/-- Every thread is guarded at what it has seen. -/
abbrev Tidy (P : Platform) : Reversing → Prop :=
  Config.Conforms (reversals P) (fun _ => True) ReversalGuard ReversalResult

section Runs

variable {c : Reversing}

theorem traceable_init : Traceable (.init .empty) where
  wellKept := WellKept.nil
  listed := fun _ _ h => by simp [Config.own, Config.init] at h
  found := fun _ _ h => by simp [Config.own, Config.init] at h
  reversed := fun _ _ h => by simp [Config.own, Config.init] at h

/-- A call keeps the trace. -/
theorem Traceable.answer (h : Traceable c) {i : ℕ} {env : FeeEnv} {req : FeeReq} {q : Call}
    {k : Except FeeError (Answer q) → FeeOp Unit} (hguard : ReversalGuard req (c.own i) q) :
    Traceable (c.answer (reversals P) i env req q k) := by
  have hgrows : ∀ e ∈ c.store.ledger, e ∈ (q.exec P env c.store).2.ledger :=
    ledger_grows q env c.store
  refine ⟨?_, fun j entries hmem e he => ?_, fun j e hmem => ?_, fun j id hmem => ?_⟩
  · rcases exec_effect P q env c.store with heq | heff
    · exact (congrArg (fun s => WellKept s.ledger) heq).mpr h.wellKept
    · exact heff.wellKept h.wellKept hguard (h.found i)
  · rcases Config.mem_own_of_answer hmem with ⟨rfl, hobs⟩ | hmem
    · obtain ⟨id, -, rfl⟩ := listed_of_traced hobs
      obtain ⟨hmem, hfilter⟩ := List.mem_filter.mp he
      exact ⟨hgrows e hmem, (of_decide_eq_true hfilter).2⟩
    · obtain ⟨hledger, hkind⟩ := h.listed j entries hmem e he
      exact ⟨hgrows e hledger, hkind⟩
  · rcases Config.mem_own_of_answer hmem with ⟨rfl, hobs⟩ | hmem
    · obtain ⟨id, -, hfind⟩ := found_of_traced hobs
      exact hgrows e (List.mem_of_find?_eq_some hfind)
    · exact hgrows e (h.found j e hmem)
  · rcases Config.mem_own_of_answer hmem with ⟨rfl, hobs⟩ | hmem
    · exact reversed_of_traced hguard hobs
    · exact isReversed_grows hgrows (h.reversed j id hmem)

/-- Every run keeps the ledger. -/
theorem traceable_run (as : List (Action FeeEnv FeeReq)) :
    Tidy P (Config.exec (reversals P) (.init .empty) as) ∧
      Traceable (Config.exec (reversals P) (.init .empty) as) :=
  Config.run_invariant (A := fun _ _ => True) (fun req => reversal_guards req)
    (fun _ _ _ _ => trivial)
    (fun _ h _ => ⟨h.wellKept, h.listed, h.found, h.reversed⟩)
    (fun _ h _ _ hguard => h.answer hguard)
    (fun _ h _ _ => ⟨h.wellKept, h.listed, h.found, h.reversed⟩) as
    (Config.conforms_init trivial) traceable_init (Config.along_true as)

/-- Call `i` reverses the generation, and what it lists has the entries of the ledger it
was started with. -/
structure Underway (i g : ℕ) (ledger : List Entry) (c : Reversing) : Prop where
  traceable : Traceable c
  serves : c.reqOf i = some (.reverseGeneration g)
  kept : ∀ e ∈ ledger, e ∈ c.store.ledger
  covers : ∀ entries, Traced.listed entries ∈ c.own i → ∀ e ∈ ledger,
    e.kind = .ALLOCATION → e.confirmationEvidenceId = g → e ∈ entries

section Answers

variable {i g : ℕ} {ledger : List Entry} {env : FeeEnv} {q : Call}

/-- A new reversal is under way. -/
theorem underway_spawn (hc : Tidy P c) (h : Traceable c) :
    Underway c.threads.length g c.store.ledger
      (c.spawn (reversals P) (.reverseGeneration g)) where
  traceable := ⟨h.wellKept, h.listed, h.found, h.reversed⟩
  serves := Config.reqOf_spawn_self _
  kept := fun _ he => he
  covers := fun entries hmem => by
    rw [Config.own_spawn, hc.own_length le_rfl] at hmem
    cases hmem

theorem Underway.spawn (h : Underway i g ledger c) (req : FeeReq) :
    Underway i g ledger (c.spawn (reversals P) req) where
  traceable := ⟨h.traceable.wellKept, h.traceable.listed, h.traceable.found, h.traceable.reversed⟩
  serves := Config.reqOf_step (S := reversals P) h.serves (.start req)
  kept := h.kept
  covers := h.covers

theorem Underway.kill (h : Underway i g ledger c) {j : ℕ}
    {t : Thread Answer FeeError Unit FeeReq} (ht : c.threads[j]? = some t) :
    Underway i g ledger (c.kill j t) where
  traceable := ⟨h.traceable.wellKept, h.traceable.listed, h.traceable.found, h.traceable.reversed⟩
  serves := (Config.reqOf_kill ht i).trans h.serves
  kept := h.kept
  covers := h.covers

/-- A call leaves a reversal under way. -/
theorem Underway.answer (h : Underway i g ledger c) {j : ℕ} {req : FeeReq}
    {k : Except FeeError (Answer q) → FeeOp Unit}
    (ht : c.threads[j]? = some ⟨req, .call q k, true⟩)
    (hguard : ReversalGuard req (c.own j) q) :
    Underway i g ledger (c.answer (reversals P) j env req q k) where
  traceable := h.traceable.answer hguard
  serves := (Config.reqOf_answer ht i).trans h.serves
  kept := fun e he => ledger_grows q env c.store e (h.kept e he)
  covers := fun entries hmem e he hkind hgen => by
    rcases Config.mem_own_of_answer hmem with ⟨rfl, hobs⟩ | hmem
    · obtain ⟨id, rfl, rfl⟩ := listed_of_traced hobs
      have hreq : req = .reverseGeneration g :=
        Option.some.inj ((Config.reqOf_of_thread ht).symm.trans h.serves)
      rw [hreq] at hguard
      obtain rfl := FeeReq.reverseGeneration.inj hguard
      exact List.mem_filter.mpr ⟨h.kept e he, decide_eq_true ⟨hgen, hkind⟩⟩
    · exact h.covers entries hmem e he hkind hgen

theorem exec_answered (hfate : env.fate = .answered) (s : FeeStore) :
    q.exec P env s = q.run P env s := by
  rw [Call.exec, hfate]
  rfl

/-- An answered statement of the call does not stop it, unless the entry is already
reversed. -/
theorem traced_clear (h : Traceable c) (hfate : env.fate = .answered)
    (hguard : ReversalGuard (.reverseGeneration g) (c.own i) q)
    (hq : q.unreversed c.store.ledger = true) :
    ∀ o ∈ traced q c.store (q.exec P env c.store).1, o.stops = false := by
  rw [exec_answered hfate]
  cases q with
  | findAllocations id =>
    intro o ho
    obtain rfl := List.mem_singleton.mp ho
    rfl
  | findEntry id =>
    obtain ⟨entries, hlisted, e, he, rfl⟩ := hguard g rfl
    obtain ⟨hledger, hkind⟩ := h.listed i entries hlisted e he
    rw [Call.run, h.wellKept.find hledger]
    intro o ho
    obtain rfl := List.mem_singleton.mp ho
    simp [Traced.stops, hkind]
  | commitReversal entry =>
    obtain ⟨e, hfound, hkind, rfl⟩ := hguard
    have hnot : isReversed c.store.ledger (some e.id) = false :=
      (Bool.not_eq_true' _).mp hq
    rw [run_commitReversal h.wellKept (h.found i e hfound) hkind, hnot]
    intro o ho
    obtain rfl := List.mem_singleton.mp ho
    rfl
  | commitAllocation entries => exact absurd rfl (hguard.1 g)
  | _ => exact absurd rfl (hguard g)

/-- A reversal of a reversed entry is refused. -/
theorem traced_refused (h : Traceable c) (hfate : env.fate = .answered)
    (hguard : ReversalGuard (.reverseGeneration g) (c.own i) q)
    (hq : q.unreversed c.store.ledger = false) :
    Traced.refused ∈ traced q c.store (q.exec P env c.store).1 := by
  rw [exec_answered hfate]
  cases q with
  | commitReversal entry =>
    obtain ⟨e, hfound, hkind, rfl⟩ := hguard
    have hyes : isReversed c.store.ledger (some e.id) = true :=
      (Bool.not_eq_false' _).mp hq
    rw [run_commitReversal h.wellKept (h.found i e hfound) hkind, hyes]
    exact List.mem_singleton_self _
  | _ => cases hq

end Answers

section Outcomes

variable {i g : ℕ} {ledger : List Entry} {after : List (Action FeeEnv FeeReq)}

/-- A thread with an outcome is at its end. -/
theorem outcome_some {r : Except FeeError Unit} (h : outcome c i = some r) :
    ∃ req live, c.threads[i]? = some ⟨req, .ret r, live⟩ := by
  unfold outcome at h
  rcases ht : c.threads[i]? with _ | ⟨req, ⟨r'⟩ | ⟨q, k⟩, live⟩ <;> rw [ht] at h
  · cases h
  · cases h
    exact ⟨req, live, rfl⟩
  · cases h

/-- What the call has done when it ends. -/
theorem Underway.result (hc : Tidy P c) (h : Underway i g ledger c) {r : Except FeeError Unit}
    (hr : outcome c i = some r) : ReversalResult (.reverseGeneration g) (c.own i) r := by
  obtain ⟨req, live, ht⟩ := outcome_some hr
  have hreq : req = .reverseGeneration g :=
    Option.some.inj ((Config.reqOf_of_thread ht).symm.trans h.serves)
  have hresult := hc.result ht
  rwa [hreq] at hresult

/-- A call that was never refused never came to an entry that was already reversed. -/
theorem unreversed_of_not_refused (hc : Tidy P c) (h : Underway i g ledger c)
    (hanswered : Config.Along (reversals P) (AnsweredTo i) c after)
    (hend : Traced.refused ∉ (c.exec (reversals P) after).own i) :
    Config.Along (reversals P) (Unreversed i) c after := by
  have hnever : Config.Along (reversals P)
      (fun c a => Traced.refused ∉ (c.step (reversals P) a).own i) c after :=
    (Config.along_of_exec (I := fun c => Traced.refused ∉ c.own i)
      (fun hstep hmem => hstep (Config.mem_own_step hmem _)) hend).2
  refine Config.run_along (I := Underway i g ledger) (fun req => reversal_guards req)
    (fun _ _ _ _ => trivial) (fun _ h _ => h.spawn _)
    (fun _ h _ ht hguard => h.answer ht hguard) (fun _ h _ ht => h.kill ht) ?_ hc h
    (hanswered.and hnever)
  rintro c a hc h ⟨hfate, hstep⟩
  cases a with
  | start req => trivial
  | crash j => trivial
  | run j env =>
    rintro rfl
    cases hnext : c.next j with
    | none => rfl
    | some q =>
      obtain ⟨req, k, ht⟩ := Config.call_of_next hnext
      have hreq : req = .reverseGeneration g :=
        Option.some.inj ((Config.reqOf_of_thread ht).symm.trans h.serves)
      have hguard := hc.guard ht
      rw [hreq] at hguard
      rw [Option.all_some]
      by_contra hq
      refine hstep ?_
      have hrefused := traced_refused (P := P) h.traceable (hfate rfl) hguard (by simpa using hq)
      rw [Config.step, ht]
      exact Config.mem_own.mpr (Config.mem_trace_of_observe hrefused)

/-- A call that always comes to entries that are not reversed is never stopped. -/
theorem clear_of_unreversed (hc : Tidy P c) (h : Underway i g ledger c)
    (hown : c.own i = []) (hanswered : Config.Along (reversals P) (AnsweredTo i) c after)
    (hfresh : Config.Along (reversals P) (Unreversed i) c after) :
    Tidy P (c.exec (reversals P) after) ∧ Underway i g ledger (c.exec (reversals P) after) ∧
      ¬ Stuck ((c.exec (reversals P) after).own i) := by
  refine Config.run_invariant (I := fun c => Underway i g ledger c ∧ ¬ Stuck (c.own i))
    (fun req => reversal_guards req) (fun _ _ _ _ => trivial)
    (fun _ h _ => ⟨h.1.spawn _, h.2⟩) ?_ (fun _ h _ ht => ⟨h.1.kill ht, h.2⟩) after hc
    ⟨h, by rw [hown]; exact fun ⟨_, ho, _⟩ => absurd ho List.not_mem_nil⟩
    (hanswered.and hfresh)
  rintro c j env req q k hc ⟨h, hclear⟩ ⟨hfate, hq⟩ ht hguard
  refine ⟨h.answer ht hguard, ?_⟩
  rintro ⟨o, ho, hstops⟩
  rcases Config.mem_own_of_answer ho with ⟨rfl, hobs⟩ | ho
  · have hreq : req = .reverseGeneration g :=
      Option.some.inj ((Config.reqOf_of_thread ht).symm.trans h.serves)
    rw [hreq] at hguard
    have hunreversed := hq rfl
    rw [Config.next_of_call ht, Option.all_some] at hunreversed
    have hgo := traced_clear (P := P) h.traceable (hfate rfl) hguard hunreversed o hobs
    rw [hstops] at hgo
    cases hgo
  · exact hclear ⟨o, ho, hstops⟩

/-- A call that succeeded has reversed the generation. -/
theorem Underway.generationReversed (hc : Tidy P c) (h : Underway i g ledger c)
    (hr : outcome c i = some (.ok ())) : GenerationReversed g ledger c.store.ledger := by
  obtain ⟨-, entries, hlisted, hdone⟩ := h.result hc hr g rfl
  intro e he hkind hgen
  have hentry := h.covers entries hlisted e he hkind hgen
  exact h.traceable.wellKept.reversedOnce (h.kept e he)
    (h.traceable.reversed i _ (hdone e hentry))

end Outcomes

end Runs

/-- A call of `reverseGeneration`, started in any state and run beside any others until it
ends, with every statement of its own answered, succeeds and leaves each allocation of the
generation with exactly one reversal of the opposite amount if and only if none of the
entries is already reversed when its turn comes. -/
theorem reversal_converges (P : Platform) (before after : List (Action FeeEnv FeeReq)) (g : ℕ)
    (c c' : Reversing) (hc : c = Config.exec (reversals P) (.init .empty) before)
    (hc' : c' = c.exec (reversals P) (.start (.reverseGeneration g) :: after))
    (hanswered : Config.Along (reversals P) (AnsweredTo c.threads.length) c
      (.start (.reverseGeneration g) :: after))
    (hended : outcome c' c.threads.length ≠ none) :
    outcome c' c.threads.length = some (.ok ()) ∧
        GenerationReversed g c.store.ledger c'.store.ledger ↔
      Config.Along (reversals P) (Unreversed c.threads.length) c
        (.start (.reverseGeneration g) :: after) := by
  obtain ⟨htidy, htraceable⟩ := traceable_run (P := P) before
  rw [← hc] at htidy htraceable
  have hstart : Underway c.threads.length g c.store.ledger
      (c.step (reversals P) (.start (.reverseGeneration g))) := underway_spawn htidy htraceable
  have htidy' : Tidy P (c.step (reversals P) (.start (.reverseGeneration g))) :=
    htidy.step (fun req => reversal_guards req) (fun _ _ _ _ => trivial) _
  have hown : (c.step (reversals P) (.start (.reverseGeneration g))).own c.threads.length = [] :=
    htidy.own_length le_rfl
  rw [Config.exec_cons] at hc'
  have hend := Config.run_invariant (A := fun _ _ => True)
    (I := Underway c.threads.length g c.store.ledger) (fun req => reversal_guards req)
    (fun _ _ _ _ => trivial) (fun _ h _ => h.spawn _)
    (fun _ h _ ht hguard => h.answer ht hguard) (fun _ h _ ht => h.kill ht) after htidy' hstart
    (Config.along_true after)
  rw [← hc'] at hend
  constructor
  · rintro ⟨hok, -⟩
    have hrefused := (hend.2.result hend.1 hok g rfl).1
    rw [hc'] at hrefused
    exact ⟨trivial, unreversed_of_not_refused htidy' hstart hanswered.2 hrefused⟩
  · rintro ⟨-, hfresh⟩
    obtain ⟨-, -, hclear⟩ := clear_of_unreversed htidy' hstart hown hanswered.2 hfresh
    rw [← hc'] at hclear
    obtain ⟨r, hr⟩ := Option.ne_none_iff_exists'.mp hended
    cases r with
    | error e => exact absurd (hend.2.result hend.1 hr g rfl) hclear
    | ok u => exact ⟨hr, hend.2.generationReversed hend.1 hr⟩

instance (i : ℕ) (c : Reversing) : (a : Action FeeEnv FeeReq) → Decidable (AnsweredTo i c a)
  | .start _ => inferInstanceAs (Decidable True)
  | .run _ _ => inferInstanceAs (Decidable (_ → _))
  | .crash _ => inferInstanceAs (Decidable True)

instance (i : ℕ) (c : Reversing) : (a : Action FeeEnv FeeReq) → Decidable (Unreversed i c a)
  | .start _ => inferInstanceAs (Decidable True)
  | .run _ _ => inferInstanceAs (Decidable (_ → _))
  | .crash _ => inferInstanceAs (Decidable True)

/-- A fee is collected and allocated to its two recipients. -/
def allocated : List (Action FeeEnv FeeReq) :=
  collection ++ .start .allocate :: List.replicate 5 (.run 2 { })

/-- The generation of the sample is reversed. -/
theorem reversal_converges_sample :
    ∃ c c' : Reversing, c = Config.exec (reversals allocationPlatform) (.init .empty) allocated ∧
      c' = c.exec (reversals allocationPlatform)
        (.start (.reverseGeneration 1) :: List.replicate 5 (.run 3 { })) ∧
      c.store.ledger.length = 2 ∧ outcome c' 3 = some (.ok ()) ∧
      GenerationReversed 1 c.store.ledger c'.store.ledger := by
  have hall : (Config.exec (reversals allocationPlatform) (.init .empty) allocated).threads.length =
        3 ∧ (Config.exec (reversals allocationPlatform) (.init .empty) allocated).store.ledger.length
        = 2 ∧ Config.Along (reversals allocationPlatform) (fun c a => AnsweredTo 3 c a ∧
          Unreversed 3 c a) (Config.exec (reversals allocationPlatform) (.init .empty) allocated)
        (.start (.reverseGeneration 1) :: List.replicate 5 (.run 3 { })) ∧
      outcome ((Config.exec (reversals allocationPlatform) (.init .empty) allocated).exec
        (reversals allocationPlatform)
        (.start (.reverseGeneration 1) :: List.replicate 5 (.run 3 { }))) 3 ≠ none := by
    decide +kernel
  obtain ⟨hthreads, hledger, halong, hended⟩ := hall
  have hboth := reversal_converges allocationPlatform allocated
    (List.replicate 5 (.run 3 { })) 1 _ _ rfl rfl
    (by rw [hthreads]; exact halong.mono fun _ _ h => h.1) (by rw [hthreads]; exact hended)
  rw [hthreads] at hboth
  exact ⟨_, _, rfl, rfl, hledger, hboth.mpr (halong.mono fun _ _ h => h.2)⟩

/-- The first of two entries is reversed on its own. -/
def partlyReversed : List (Action FeeEnv FeeReq) :=
  allocated ++ .start (.reverseEntry 0) :: List.replicate 2 (.run 3 { })

/-- A generation that is reversed in part can not be reversed any more. -/
theorem reversal_blocked :
    ¬ ∀ (P : Platform) (before after : List (Action FeeEnv FeeReq)) (g : ℕ) (c c' : Reversing),
      c = Config.exec (reversals P) (.init .empty) before →
      c' = c.exec (reversals P) (.start (.reverseGeneration g) :: after) →
      Config.Along (reversals P) (AnsweredTo c.threads.length) c
        (.start (.reverseGeneration g) :: after) →
      outcome c' c.threads.length ≠ none →
      outcome c' c.threads.length = some (.ok ()) ∧
        GenerationReversed g c.store.ledger c'.store.ledger := by
  intro h
  have hok := (h allocationPlatform partlyReversed (List.replicate 5 (.run 4 { })) 1 _ _ rfl rfl
    (by decide +kernel) (by decide +kernel)).1
  exact absurd hok (by decide +kernel)

end Sails.Fees
