import SailsProtocol.Escrow.Claims

/-!
# The deposit address and the stored keys

`submitParticipantKey` stores a key of the buyer or the seller. Once both are there it
derives the MULTISIG address from them, stores it, and commits the arbiter key. Nothing
stops a party from submitting another key afterwards : the row is replaced and the address
is not derived again (`resubmitted_key_mismatch`). A crash before the last write leaves the
address without the arbiter row.

`address_matches_stored_keys` is the exact repair : when no submitted key replaces another
one once the address is stored or being derived, and the commitment of the arbiter key that
follows a stored address neither fails nor crashes, the stored address is the address of
the three stored keys whenever no operation is in flight.
-/

namespace Sails

open Async Async.Config

variable {cfg : Settings} {w : World}

/-- The MULTISIG address of a buyer's and a seller's key. -/
def depositAddress (cfg : Settings) (buyer seller : SubmittedKey) : Address :=
  .p2wsh (MultisigParties.buildScript ⟨buyer.bytes, seller.bytes, cfg.arbiterPubkey⟩)

/-- The address, if there is one, is the address of the three stored keys. -/
def World.addressMatchesKeys (s : World) : Bool :=
  match s.escrow.multisigAddr, s.keys.buyer, s.keys.seller, s.keys.arbiter with
  | none, _, _, _ => true
  | some a, some buyer, some seller, some arbiter =>
    decide (a = .p2wsh (MultisigParties.buildScript
      ⟨buyer.pubkey.bytes, seller.pubkey.bytes, arbiter⟩))
  | _, _, _, _ => false

/-- The row of a buyer or seller. -/
def KeyRows.row (k : KeyRows) : Role → Option KeyRow
  | .buyer => k.buyer
  | .seller => k.seller
  | .arbiter => none

/-- An operation in flight has read both keys to derive the address. -/
def derivationInFlight (c : EscrowConfig) : Bool :=
  (List.range c.threads.length).any fun j =>
    (c.next j).isSome && (Footprint.of (c.own j)).keysRead.isSome

/-- The step replaces no key under a stored or nascent address, and does not leave a stored
address without the arbiter key. -/
def keepsCommittedKeys (c : EscrowConfig) : Step → Bool
  | .start _ => true
  | .run i env =>
    match c.next i with
    | some (.upsertKey role row) => env.fault.isSome || (c.store.keys.row role).all fun stored =>
        decide (stored.pubkey = row.pubkey) ||
          (c.store.escrow.multisigAddr.isNone && !derivationInFlight c)
    | some (.createArbiterKey _) => env.fault.isNone || c.store.keys.arbiter.isSome
    | _ => true
  | .crash i =>
    match c.next i with
    | some (.createArbiterKey _) => c.store.keys.arbiter.isSome
    | _ => true

/-! ## What the runs keep -/

/-- The stored keys of the buyer and the seller. -/
def World.KeysAre (s : World) (buyer seller : SubmittedKey) : Prop :=
  s.keys.buyer.map KeyRow.pubkey = some buyer ∧ s.keys.seller.map KeyRow.pubkey = some seller

/-- The three stored keys. -/
def World.Committed (cfg : Settings) (s : World) (buyer seller : SubmittedKey) : Prop :=
  s.KeysAre buyer seller ∧ s.keys.arbiter = some cfg.arbiterPubkey

/-- What the log of an operation says about keys agrees with the store. -/
structure KeyLog (cfg : Settings) (s : World) (h : List Obs) : Prop where
  rail : ∀ e, (Footprint.of h).lastRead = some e → e.type = .multisig
  derived : ∀ t b k d, (Footprint.of h).derived = some (t, b, k, d) → t = .multisig →
    d = ⟨depositAddress cfg b k, some cfg.arbiterPubkey⟩
  uncommitted : ∀ a, (Footprint.of h).uncommitted = some a →
    a = cfg.arbiterPubkey ∧ s.escrow.multisigAddr ≠ none
  loaded : ∀ keys, (Footprint.of h).loaded = some keys → keys.arbiterPubkey ≠ none →
    ∃ b k, s.Committed cfg b k ∧ keys = ⟨some b, some k, some cfg.arbiterPubkey⟩
  locked : ∀ keys a, (Footprint.of h).locked = some (.multisig, keys, a) →
    ∃ b k, s.Committed cfg b k ∧ a = depositAddress cfg b k

/-- What one more observation has to agree with. -/
def Obs.Agrees (cfg : Settings) (s : World) (h : List Obs) : Obs → Prop
  | .read e => e.type = .multisig
  | .derived t b k d => t = .multisig → d = ⟨depositAddress cfg b k, some cfg.arbiterPubkey⟩
  | .addressWritten _ => (∀ d, (Footprint.of h).derived = some d → d.1 = .multisig) ∧
      s.escrow.multisigAddr ≠ none
  | .pubkeysLoaded keys => keys.arbiterPubkey ≠ none →
      ∃ b k, s.Committed cfg b k ∧ keys = ⟨some b, some k, some cfg.arbiterPubkey⟩
  | .locked t _ a => t = .multisig → ∃ b k, s.Committed cfg b k ∧ a = depositAddress cfg b k
  | _ => True

/-- A log that agrees with the keys, with one more observation that does. -/
theorem KeyLog.cons {s : World} {h : List Obs} {o : Obs} (hl : KeyLog cfg s h)
    (ho : o.Agrees cfg s h) : KeyLog cfg s (o :: h) := by
  cases o with
  | read e =>
    refine ⟨fun e' he => ?_, hl.derived, hl.uncommitted, hl.loaded, hl.locked⟩
    cases he
    exact ho
  | derived t b k d =>
    refine ⟨hl.rail, fun t' b' k' d' hd => ?_, hl.uncommitted, hl.loaded, hl.locked⟩
    cases hd
    exact ho
  | addressWritten a =>
    refine ⟨hl.rail, hl.derived, fun a' ha => ⟨?_, ho.2⟩, hl.loaded, hl.locked⟩
    obtain ⟨⟨t, b, k, d⟩, hd, harb⟩ := Option.bind_eq_some_iff.mp ha
    rw [hl.derived t b k d hd (ho.1 _ hd)] at harb
    exact (Option.some.inj harb).symm
  | pubkeysLoaded keys =>
    refine ⟨hl.rail, hl.derived, hl.uncommitted, fun keys' hk => ?_, hl.locked⟩
    cases hk
    exact ho
  | locked t keys a =>
    refine ⟨hl.rail, hl.derived, hl.uncommitted, hl.loaded, fun keys' a' hk => ?_⟩
    cases hk
    exact ho rfl
  | failed => exact ⟨hl.rail, hl.derived, fun a ha => (by cases ha), hl.loaded, hl.locked⟩
  | refused => exact ⟨hl.rail, hl.derived, fun a ha => (by cases ha), hl.loaded, hl.locked⟩
  | arbiterWritten a => exact ⟨hl.rail, hl.derived, fun a ha => (by cases ha), hl.loaded, hl.locked⟩
  | _ => exact ⟨hl.rail, hl.derived, hl.uncommitted, hl.loaded, hl.locked⟩

/-- A call whose observations agree with the store keeps the log in agreement. -/
theorem KeyLog.append {q : Call} {s s₀ : World} {r : Except Err q.Ans} {h : List Obs}
    (hl : KeyLog cfg s h) (hos : ∀ o ∈ q.observe s₀ r, o.Agrees cfg s h) :
    KeyLog cfg s (q.observe s₀ r ++ h) := by
  rcases observe_cases q s₀ r with ho | ⟨o, ho⟩ | ⟨pass, kind, st, ho⟩
  · rwa [ho]
  · rw [ho] at hos ⊢
    exact hl.cons (hos o List.mem_cons_self)
  · rw [ho]
    exact (hl.cons (o := .handedOver pass kind st) trivial).cons (o := .failed) trivial

/-- Agreement is kept by a store that keeps what is committed. -/
theorem KeyLog.mono {s s' : World} {h : List Obs} (hl : KeyLog cfg s h)
    (hcommitted : ∀ b k, s.Committed cfg b k → s'.Committed cfg b k)
    (haddr : s.escrow.multisigAddr ≠ none → s'.escrow.multisigAddr ≠ none) : KeyLog cfg s' h where
  rail := hl.rail
  derived := hl.derived
  uncommitted := fun a ha => ⟨(hl.uncommitted a ha).1, haddr (hl.uncommitted a ha).2⟩
  loaded := fun keys hk harb => by
    obtain ⟨b, k, hc, heq⟩ := hl.loaded keys hk harb
    exact ⟨b, k, hcommitted b k hc, heq⟩
  locked := fun keys a hk => by
    obtain ⟨b, k, hc, heq⟩ := hl.locked keys a hk
    exact ⟨b, k, hcommitted b k hc, heq⟩

/-- What the runs keep : the address belongs to the stored keys, the arbiter key is stored
or about to be, a derivation in flight works with the stored keys, and every log agrees
with the store. -/
structure KeyInv (cfg : Settings) (c : EscrowConfig) : Prop where
  arbiter : ∀ a, c.store.keys.arbiter = some a →
    a = cfg.arbiterPubkey ∧ c.store.escrow.multisigAddr ≠ none
  address : ∀ a, c.store.escrow.multisigAddr = some a →
    ∃ b k, c.store.KeysAre b k ∧ a = depositAddress cfg b k
  commit : c.store.escrow.multisigAddr ≠ none → c.store.keys.arbiter ≠ none ∨
    ∃ i, c.next i = some (.createArbiterKey cfg.arbiterPubkey)
  read : ∀ i b k, c.next i ≠ none → (Footprint.of (c.own i)).keysRead = some (b, k) →
    c.store.KeysAre b k
  log : ∀ i, KeyLog cfg c.store (c.own i)

theorem KeyInv.committed {c : EscrowConfig} (hI : KeyInv cfg c)
    (harb : c.store.keys.arbiter ≠ none) : ∃ b k, c.store.Committed cfg b k := by
  obtain ⟨a, ha⟩ := Option.ne_none_iff_exists'.mp harb
  obtain ⟨rfl, haddr⟩ := hI.arbiter a ha
  obtain ⟨addr, haddr⟩ := Option.ne_none_iff_exists'.mp haddr
  obtain ⟨b, k, hkeys, -⟩ := hI.address addr haddr
  exact ⟨b, k, hkeys, ha⟩

/-- Without an operation in flight the address matches the keys. -/
theorem KeyInv.matches {c : EscrowConfig} (hI : KeyInv cfg c) (hq : c.quiescent = true) :
    c.store.addressMatchesKeys = true := by
  unfold World.addressMatchesKeys
  cases haddr : c.store.escrow.multisigAddr with
  | none => rfl
  | some a =>
    obtain ⟨b, k, ⟨hb, hk⟩, ha⟩ := hI.address a haddr
    obtain ⟨buyer, hbuyer, rfl⟩ := Option.map_eq_some_iff.mp hb
    obtain ⟨seller, hseller, rfl⟩ := Option.map_eq_some_iff.mp hk
    have harb : c.store.keys.arbiter ≠ none := by
      rcases hI.commit (by rw [haddr]; simp) with harb | ⟨i, hi⟩
      · exact harb
      · rw [next_of_quiescent hq i] at hi
        cases hi
    obtain ⟨arbiter, harb⟩ := Option.ne_none_iff_exists'.mp harb
    obtain ⟨rfl, -⟩ := hI.arbiter arbiter harb
    rw [hbuyer, hseller, harb]
    exact decide_eq_true ha

/-! ## Steps -/

section Steps

variable {c : EscrowConfig} {i : ℕ} {env : Env} {req : Request} {q : Call}
variable {k : Except Err q.Ans → Op Unit}

/-- The calls that write the keys or the address. -/
def Call.writesKeys : Call → Bool
  | .upsertKey _ _ | .updateMultisigAddr _ | .createArbiterKey _ | .updateLockResult _ _ => true
  | _ => false

/-- A call that writes no key leaves the keys and the address. -/
theorem keys_exec (hq : q.writesKeys = false) (s : World) :
    (q.exec cfg env s).2.keys = s.keys ∧
      (q.exec cfg env s).2.escrow.multisigAddr = s.escrow.multisigAddr := by
  obtain ⟨fault, _⟩ := env
  cases fault with
  | some f => exact ⟨rfl, rfl⟩
  | none =>
    cases q <;> cases hq <;> simp only [Call.exec, Call.run] <;> (repeat' split) <;>
      first | exact ⟨rfl, rfl⟩ | exact ⟨trivial, trivial⟩

theorem keysRead_append {s : World} {r : Except Err q.Ans} {h : List Obs}
    (hq : q ≠ .findParticipantKeys) :
    (Footprint.of (q.observe s r ++ h)).keysRead = (Footprint.of h).keysRead := by
  refine Footprint.of_append _ fun o ho f => ?_
  have hof := of_mem_observe ho
  cases o <;> first | rfl | exact absurd hof hq

theorem next_ne_none (ht : c.threads[i]? = some ⟨req, .call q k, true⟩) : c.next i ≠ none := by
  rw [next_of_call ht]
  exact Option.some_ne_none q

/-- A step that keeps what is committed keeps the invariant, when what it writes and
observes agrees with the keys. -/
theorem KeyInv.of_step (hI : KeyInv cfg c) (ht : c.threads[i]? = some ⟨req, .call q k, true⟩)
    {s' : World} (hs' : (q.exec cfg env c.store).2 = s')
    (hcommitted : ∀ b k, c.store.Committed cfg b k → s'.Committed cfg b k)
    (haddr : c.store.escrow.multisigAddr ≠ none → s'.escrow.multisigAddr ≠ none)
    (harbiter : ∀ a, s'.keys.arbiter = some a →
      a = cfg.arbiterPubkey ∧ s'.escrow.multisigAddr ≠ none)
    (haddress : ∀ a, s'.escrow.multisigAddr = some a →
      ∃ b k, s'.KeysAre b k ∧ a = depositAddress cfg b k)
    (hcommit : s'.escrow.multisigAddr ≠ none → s'.keys.arbiter ≠ none ∨
      ∃ j, (c.answer (escrowSystem cfg) i env req q k).next j =
        some (.createArbiterKey cfg.arbiterPubkey))
    (hkeys : ∀ j b k, c.next j ≠ none → (Footprint.of (c.own j)).keysRead = some (b, k) →
      s'.KeysAre b k)
    (hread : ∀ b k, (Footprint.of (q.observe c.store (q.exec cfg env c.store).1 ++
      c.own i)).keysRead = some (b, k) → s'.KeysAre b k)
    (hlog : KeyLog cfg s' (q.observe c.store (q.exec cfg env c.store).1 ++ c.own i)) :
    KeyInv cfg (c.answer (escrowSystem cfg) i env req q k) := by
  subst hs'
  refine ⟨harbiter, haddress, hcommit, fun j b k' hn hr => ?_, fun j => ?_⟩
  · by_cases hij : j = i
    · subst hij
      rw [own_answer_self] at hr
      exact hread b k' hr
    · rw [next_answer_of_ne hij] at hn
      rw [own_answer_of_ne hij] at hr
      exact hkeys j b k' hn hr
  · exact forall_own (P := fun _ h => KeyLog cfg (q.exec cfg env c.store).2 h)
      (fun j => (hI.log j).mono hcommitted haddr) hlog j

/-- A step that leaves the public keys and the address. -/
theorem KeyInv.of_same (hI : KeyInv cfg c) (ht : c.threads[i]? = some ⟨req, .call q k, true⟩)
    (hsame : ∀ b k, c.store.KeysAre b k → (q.exec cfg env c.store).2.KeysAre b k)
    (harb : (q.exec cfg env c.store).2.keys.arbiter = c.store.keys.arbiter)
    (haddr : (q.exec cfg env c.store).2.escrow.multisigAddr = c.store.escrow.multisigAddr)
    (hcommit : (∀ a, q ≠ .createArbiterKey a) ∨ c.store.keys.arbiter ≠ none)
    (hread : ∀ b k, (Footprint.of (q.observe c.store (q.exec cfg env c.store).1 ++
      c.own i)).keysRead = some (b, k) → c.store.KeysAre b k)
    (hagree : ∀ o ∈ q.observe c.store (q.exec cfg env c.store).1,
      o.Agrees cfg c.store (c.own i)) :
    KeyInv cfg (c.answer (escrowSystem cfg) i env req q k) := by
  have hcommitted : ∀ b k, c.store.Committed cfg b k →
      (q.exec cfg env c.store).2.Committed cfg b k := fun b k' hk =>
    ⟨hsame b k' hk.1, harb.trans hk.2⟩
  refine hI.of_step ht rfl hcommitted (by rw [haddr]; exact id) ?_ ?_ ?_
    (fun j b k' hn hr => hsame b k' (hI.read j b k' hn hr)) (fun b k' hr => hsame b k' (hread b k' hr))
    (((hI.log i).append hagree).mono hcommitted (by rw [haddr]; exact id))
  · rw [harb, haddr]
    exact hI.arbiter
  · intro a ha
    rw [haddr] at ha
    obtain ⟨b, k', hk, heq⟩ := hI.address a ha
    exact ⟨b, k', hsame b k' hk, heq⟩
  · rw [harb, haddr]
    intro hne
    rcases hcommit with hq | hsome
    · refine (hI.commit hne).imp_right fun ⟨j, hj⟩ => ⟨j, ?_⟩
      have hij : j ≠ i := by
        rintro rfl
        rw [next_of_call ht] at hj
        exact hq _ (Option.some.inj hj)
      rwa [next_answer_of_ne hij]
    · exact Or.inl hsome

/-- A call that fails. -/
theorem KeyInv.of_failed (hI : KeyInv cfg c) (ht : c.threads[i]? = some ⟨req, .call q k, true⟩)
    (hstore : (q.exec cfg env c.store).2 = c.store)
    (hos : q.observe c.store (q.exec cfg env c.store).1 = [.failed] ∨
      q.observe c.store (q.exec cfg env c.store).1 = [.refused])
    (hcommit : (∀ a, q ≠ .createArbiterKey a) ∨ c.store.keys.arbiter ≠ none) :
    KeyInv cfg (c.answer (escrowSystem cfg) i env req q k) := by
  refine hI.of_same ht (by rw [hstore]; exact fun _ _ => id) (by rw [hstore]) (by rw [hstore])
    hcommit ?_ ?_
  · rcases hos with ho | ho <;> rw [ho] <;> exact fun b k' hr => hI.read i b k' (next_ne_none ht) hr
  · rcases hos with ho | ho <;> rw [ho] <;> intro o hmem <;> cases List.mem_singleton.mp hmem <;>
      trivial

/-! ## The reads -/

/-- The key rows that were read are the stored ones. -/
theorem keysRead_stored {s : World} {h : List Obs} {b k : SubmittedKey}
    (hr : (Footprint.of (Call.findParticipantKeys.observe s
      (Call.findParticipantKeys.exec cfg env s).1 ++ h)).keysRead = some (b, k)) :
    (Footprint.of h).keysRead = some (b, k) ∨ s.KeysAre b k := by
  obtain ⟨fault, _⟩ := env
  cases fault with
  | some f => exact Or.inl hr
  | none =>
    simp only [Call.exec, Call.run, Call.observe, Call.answered, KeyRows.both] at hr
    cases hb : s.keys.buyer with
    | none =>
      simp only [hb] at hr
      exact Or.inl hr
    | some buyer =>
      cases hk : s.keys.seller with
      | none =>
        simp only [hb, hk] at hr
        exact Or.inl hr
      | some seller =>
        simp only [hb, hk] at hr
        cases hr
        exact Or.inr ⟨congrArg (Option.map KeyRow.pubkey) hb, congrArg (Option.map KeyRow.pubkey) hk⟩

theorem partiesFor_ok {keys : ParticipantPubkeys} {parties : MultisigParties}
    (hk : keys.partiesFor = .ok parties) : ∃ b k a, keys = ⟨some b, some k, some a⟩ ∧
      parties = ⟨b.bytes, k.bytes, a⟩ := by
  obtain ⟨_ | b, _ | k, _ | a⟩ := keys <;> cases hk
  exact ⟨b, k, a, rfl, rfl⟩

/-- What is observed of a call that writes neither keys nor address agrees with them. -/
theorem KeyInv.agrees (hI : KeyInv cfg c) (hs : Sound cfg w c) (hw : w.escrow.type = .multisig)
    (hg : Guard req (c.own i) q) (hq : q.writesKeys = false) {o : Obs}
    (ho : o ∈ q.observe c.store (q.exec cfg env c.store).1) : o.Agrees cfg c.store (c.own i) := by
  have hrail : c.store.escrow.type = .multisig := hs.conforms.store.trans hw
  have hof := of_mem_observe ho
  obtain ⟨fault, _⟩ := env
  cases o with
  | read e =>
    cases hof
    cases fault <;> cases List.mem_singleton.mp ho
    exact hrail
  | derived t b k d =>
    cases hof
    cases fault
    · rintro rfl
      cases List.mem_singleton.mp ho
      rfl
    · cases List.mem_singleton.mp ho
  | addressWritten a =>
    cases hof
    cases hq
  | pubkeysLoaded keys =>
    cases hof
    cases fault <;> cases List.mem_singleton.mp ho
    intro harb
    obtain ⟨b, k, hc⟩ := hI.committed harb
    refine ⟨b, k, hc, ?_⟩
    rw [hc.1.1, hc.1.2, hc.2]
  | locked t keys a =>
    cases hof
    rintro rfl
    cases fault with
    | some f => cases List.mem_singleton.mp ho
    | none =>
      obtain ⟨-, hload⟩ := hg.2.2
      cases hk : keys.partiesFor with
      | error e =>
        simp only [Call.exec, Call.run, hk, Call.observe] at ho
        rcases thrown_of_refusable (q := .providerLock .multisig keys) rfl e c.store with ht | ht <;>
          rw [ht] at ho <;> cases List.mem_singleton.mp ho
      | ok parties =>
        simp only [Call.exec, Call.run, hk, Call.observe, Call.answered] at ho
        cases List.mem_singleton.mp ho
        obtain ⟨b, k, a, rfl, rfl⟩ := partiesFor_ok hk
        obtain ⟨b', k', hc, heq⟩ := (hI.log i).loaded _ (hload a rfl) (Option.some_ne_none a)
        cases heq
        exact ⟨b, k, hc, rfl⟩
  | _ => trivial

/-! ## The writes -/

/-- A submitted key leaves the arbiter key and the escrow, and the public keys when it is
the stored one. -/
theorem upsertKey_store (cfg : Settings) (role : Role) (row : KeyRow) (env : Env) (s : World) :
    ((Call.upsertKey role row).exec cfg env s).2.keys.arbiter = s.keys.arbiter ∧
      ((Call.upsertKey role row).exec cfg env s).2.escrow = s.escrow ∧
      ((∀ stored, s.keys.row role = some stored → stored.pubkey = row.pubkey) →
        ∀ b k, s.KeysAre b k → ((Call.upsertKey role row).exec cfg env s).2.KeysAre b k) := by
  obtain ⟨fault, _⟩ := env
  cases fault with
  | some f => exact ⟨rfl, rfl, fun _ _ _ => id⟩
  | none =>
    cases role with
    | arbiter => exact ⟨rfl, rfl, fun _ _ _ => id⟩
    | buyer =>
      refine ⟨rfl, rfl, fun hrow b k hk => ⟨?_, hk.2⟩⟩
      obtain ⟨stored, hstored, rfl⟩ := Option.map_eq_some_iff.mp hk.1
      exact congrArg some (hrow stored hstored).symm
    | seller =>
      refine ⟨rfl, rfl, fun hrow b k hk => ⟨hk.1, ?_⟩⟩
      obtain ⟨stored, hstored, rfl⟩ := Option.map_eq_some_iff.mp hk.2
      exact congrArg some (hrow stored hstored).symm

/-- The observations of a submitted key say nothing about keys. -/
theorem upsertKey_agrees {role : Role} {row : KeyRow} {s s' : World} {h : List Obs} {o : Obs}
    {r : Except Err Unit} (ho : o ∈ (Call.upsertKey role row).observe s r) :
    o.Agrees cfg s' h := by
  have hof := of_mem_observe ho
  cases o <;> trivial

theorem derivationInFlight_of {j : ℕ} {p : SubmittedKey × SubmittedKey} (hn : c.next j ≠ none)
    (hr : (Footprint.of (c.own j)).keysRead = some p) : derivationInFlight c = true := by
  refine List.any_eq_true.mpr ⟨j, List.mem_range.mpr ?_, ?_⟩
  · by_contra hj
    exact hn (next_length (Nat.not_lt.mp hj))
  · simp [Option.isSome_iff_ne_none.mpr hn, hr]

/-- A submitted key. -/
theorem KeyInv.upsertKey {role : Role} {row : KeyRow}
    {k : Except Err (Call.upsertKey role row).Ans → Op Unit} (hI : KeyInv cfg c)
    (hA : keepsCommittedKeys c (.run i env) = true)
    (ht : c.threads[i]? = some ⟨req, .call (.upsertKey role row) k, true⟩) :
    KeyInv cfg (c.answer (escrowSystem cfg) i env req (.upsertKey role row) k) := by
  obtain ⟨harb, hescrow, hkept⟩ := upsertKey_store cfg role row env c.store
  have haddr := congrArg Escrow.multisigAddr hescrow
  have hkr : (Footprint.of ((Call.upsertKey role row).observe c.store
      ((Call.upsertKey role row).exec cfg env c.store).1 ++ c.own i)).keysRead =
      (Footprint.of (c.own i)).keysRead := keysRead_append (by simp)
  rw [keepsCommittedKeys, next_of_call ht] at hA
  by_cases hsame : ∀ stored, c.store.keys.row role = some stored → stored.pubkey = row.pubkey
  · refine hI.of_same ht (hkept hsame) harb haddr (Or.inl (by simp)) ?_ fun o => upsertKey_agrees
    rw [hkr]
    exact fun b s hr => hI.read i b s (next_ne_none ht) hr
  · cases hfault : env.fault with
    | some f =>
      refine hI.of_failed ht (by rw [Call.exec, hfault]) (Or.inl ?_) (Or.inl (by simp))
      rw [Call.exec, hfault]
      rfl
    | none =>
      -- another key : no address is stored and none is being derived
      simp only [not_forall] at hsame
      obtain ⟨stored, hstored, hne⟩ := hsame
      simp only [hfault, Option.isSome_none, Bool.false_or, hstored, Option.all_some, hne,
        decide_false, Bool.and_eq_true, Option.isNone_iff_eq_none, Bool.not_eq_true'] at hA
      obtain ⟨hnone, hidle⟩ := hA
      have hno : ∀ j b s, c.next j ≠ none → (Footprint.of (c.own j)).keysRead ≠ some (b, s) :=
        fun j b s hn hr => by
          rw [derivationInFlight_of hn hr] at hidle
          cases hidle
      have hcommitted : ∀ b s, c.store.Committed cfg b s →
          ((Call.upsertKey role row).exec cfg env c.store).2.Committed cfg b s := fun b s hc =>
        absurd hnone (hI.arbiter _ hc.2).2
      have hmono : c.store.escrow.multisigAddr ≠ none →
          ((Call.upsertKey role row).exec cfg env c.store).2.escrow.multisigAddr ≠ none :=
        fun hne => absurd hnone hne
      refine hI.of_step ht rfl hcommitted hmono (fun a ha => ?_) (fun a ha => ?_) (fun hne => ?_)
        (fun j b s hn hr => absurd hr (hno j b s hn)) (fun b s hr => ?_)
        (((hI.log i).mono hcommitted hmono).append fun o => upsertKey_agrees)
      · rw [harb] at ha
        exact absurd hnone (hI.arbiter a ha).2
      · rw [haddr, hnone] at ha
        cases ha
      · rw [haddr, hnone] at hne
        exact absurd rfl hne
      · rw [hkr] at hr
        exact absurd hr (hno i b s (next_ne_none ht))

/-- An operation with an arbiter key to commit commits it next. -/
theorem next_of_uncommitted (hs : Sound cfg w c) {a : Bytes} {p : Op Unit}
    (ht : c.threads[i]? = some ⟨req, p, true⟩)
    (hu : (Footprint.of (c.own i)).uncommitted = some a) :
    c.next i = some (.createArbiterKey a) := by
  cases p with
  | ret r =>
    have hidle := (hs.conforms.result ht).idle.2
    rw [hu] at hidle
    cases hidle
  | call q k =>
    rw [next_of_call ht, (hs.conforms.guard ht).2.1 a hu]

/-- The address derived from the stored keys. The arbiter key is the next call. -/
theorem KeyInv.updateMultisigAddr (hs : Sound cfg w c) {a : Address}
    {k : Except Err (Call.updateMultisigAddr a).Ans → Op Unit} (hI : KeyInv cfg c)
    (ht : c.threads[i]? = some ⟨req, .call (.updateMultisigAddr a) k, true⟩)
    (hg : Guard req (c.own i) (.updateMultisigAddr a)) :
    KeyInv cfg (c.answer (escrowSystem cfg) i env req (.updateMultisigAddr a) k) := by
  have hs' : Sound cfg w (c.answer (escrowSystem cfg) i env req (.updateMultisigAddr a) k) :=
    hs.answer ht
  obtain ⟨fault, _⟩ := env
  cases fault with
  | some f => exact hI.of_failed ht rfl (Or.inl rfl) (Or.inl (by simp))
  | none =>
    obtain ⟨t, b, s, d, hder, rfl, ⟨e, he, rfl⟩, hkeys⟩ := hg.2.2
    have hrail := (hI.log i).rail e he
    obtain rfl := (hI.log i).derived _ b s d hder hrail
    have hread : c.store.KeysAre b s := hI.read i b s (next_ne_none ht) hkeys
    refine hI.of_step ht rfl (fun _ _ hc => hc) (fun _ => Option.some_ne_none _)
      (fun a ha => ⟨(hI.arbiter a ha).1, Option.some_ne_none _⟩)
      (fun a ha => ⟨b, s, hread, (Option.some.inj ha).symm⟩) (fun _ => Or.inr ⟨i, ?_⟩)
      (fun j b s hn hr => hI.read j b s hn hr)
      (fun b s hr => hI.read i b s (next_ne_none ht) hr) ?_
    · refine next_of_uncommitted hs'
        (List.getElem?_set_self (List.getElem?_eq_some_iff.mp ht).1) ?_
      rw [own_answer_self]
      exact Option.bind_eq_some_iff.mpr ⟨_, hder, rfl⟩
    · have hlog : KeyLog cfg { c.store with escrow := { c.store.escrow with
          multisigAddr := some (depositAddress cfg b s) } } (c.own i) :=
        (hI.log i).mono (fun _ _ hc => hc) fun _ => Option.some_ne_none _
      refine hlog.append ?_
      intro o ho
      cases List.mem_singleton.mp ho
      refine ⟨fun d hd => ?_, Option.some_ne_none _⟩
      rw [hder] at hd
      cases hd
      exact hrail

/-- The arbiter key of a stored address. -/
theorem KeyInv.createArbiterKey {a : Bytes}
    {k : Except Err (Call.createArbiterKey a).Ans → Op Unit} (hI : KeyInv cfg c)
    (hA : keepsCommittedKeys c (.run i env) = true)
    (ht : c.threads[i]? = some ⟨req, .call (.createArbiterKey a) k, true⟩)
    (hg : Guard req (c.own i) (.createArbiterKey a)) :
    KeyInv cfg (c.answer (escrowSystem cfg) i env req (.createArbiterKey a) k) := by
  rw [keepsCommittedKeys, next_of_call ht] at hA
  cases hfault : env.fault with
  | some f =>
    refine hI.of_failed ht (by rw [Call.exec, hfault]) (Or.inl (by rw [Call.exec, hfault]; rfl))
      (Or.inr (Option.isSome_iff_ne_none.mp ?_))
    simpa [hfault] using hA
  | none =>
    obtain ⟨rfl, haddr⟩ := (hI.log i).uncommitted a hg.2.2
    cases harb : c.store.keys.arbiter with
    | some a' =>
      refine hI.of_failed ht ?_ (Or.inr ?_) (Or.inr (by rw [harb]; exact Option.some_ne_none a'))
      · simp [Call.exec, Call.run, hfault, harb]
      · simp [Call.exec, Call.run, hfault, harb, Call.observe, Call.thrown, Call.refusable]
    | none =>
      have hexec : (Call.createArbiterKey cfg.arbiterPubkey).exec cfg env c.store = (.ok (),
          { c.store with keys := { c.store.keys with arbiter := some cfg.arbiterPubkey } }) := by
        simp [Call.exec, Call.run, hfault, harb]
      have hnone : ∀ b s, ¬ c.store.Committed cfg b s := fun b s hc => by
        rw [hc.2] at harb
        cases harb
      refine hI.of_step ht (congrArg Prod.snd hexec) (fun b s hc => absurd hc (hnone b s)) id
        (fun a ha => ⟨(Option.some.inj ha).symm, haddr⟩) hI.address
        (fun _ => Or.inl (Option.some_ne_none _)) hI.read ?_ ?_
      · rw [hexec]
        exact fun b s hr => hI.read i b s (next_ne_none ht) hr
      · rw [hexec]
        refine KeyLog.cons (o := .arbiterWritten cfg.arbiterPubkey) ?_ trivial
        exact (hI.log i).mono (fun b s hc => absurd hc (hnone b s)) id

/-- The address a lock reports, of the keys it was made with. -/
theorem KeyInv.updateLockResult {r : LockResult} {n : ℕ}
    {k : Except Err (Call.updateLockResult r n).Ans → Op Unit} (hI : KeyInv cfg c)
    (ht : c.threads[i]? = some ⟨req, .call (.updateLockResult r n) k, true⟩)
    (hg : Guard req (c.own i) (.updateLockResult r n)) :
    KeyInv cfg (c.answer (escrowSystem cfg) i env req (.updateLockResult r n) k) := by
  obtain ⟨fault, allow, _⟩ := env
  cases fault with
  | some f => exact hI.of_failed ht rfl (Or.inl rfl) (Or.inl (by simp))
  | none =>
    cases allow with
    | false => exact hI.of_failed ht rfl (Or.inr rfl) (Or.inl (by simp))
    | true =>
      obtain ⟨-, t, keys, hlock, e, he, rfl⟩ := hg.2.2
      rw [(hI.log i).rail e he] at hlock
      obtain ⟨b, s, hc, haddr⟩ := (hI.log i).locked keys r.address hlock
      refine hI.of_step ht rfl (fun _ _ hc => hc) (fun _ => Option.some_ne_none _)
        (fun a ha => ⟨(hI.arbiter a ha).1, Option.some_ne_none _⟩)
        (fun a ha => ⟨b, s, hc.1, (Option.some.inj ha).symm.trans haddr⟩)
        (fun _ => Or.inl fun hnone => ?_) hI.read
        (fun b s hr => hI.read i b s (next_ne_none ht) hr)
        ((hI.log i).mono (fun _ _ hc => hc) fun _ => Option.some_ne_none _)
      have harb : c.store.keys.arbiter = none := hnone
      rw [hc.2] at harb
      cases harb

/-- Every call keeps the invariant. -/
theorem KeyInv.answer (hs : Sound cfg w c) (hw : w.escrow.type = .multisig) (hI : KeyInv cfg c)
    (hA : keepsCommittedKeys c (.run i env) = true)
    (ht : c.threads[i]? = some ⟨req, .call q k, true⟩) (hg : Guard req (c.own i) q) :
    KeyInv cfg (c.answer (escrowSystem cfg) i env req q k) := by
  by_cases hq : q.writesKeys = true
  · cases q <;> cases hq
    · exact hI.updateLockResult ht hg
    · exact hI.upsertKey hA ht
    · exact hI.updateMultisigAddr hs ht hg
    · exact hI.createArbiterKey hA ht hg
  · rw [Bool.not_eq_true] at hq
    have hstore : (q.exec cfg env c.store).2.keys = c.store.keys ∧
        (q.exec cfg env c.store).2.escrow.multisigAddr = c.store.escrow.multisigAddr :=
      keys_exec hq c.store
    obtain ⟨hkeys, haddr⟩ := hstore
    refine hI.of_same ht (fun b s hk => ?_) (congrArg KeyRows.arbiter hkeys) haddr
      (Or.inl fun a => ?_) (fun b s hr => ?_) fun o => hI.agrees hs hw hg hq
    · rw [World.KeysAre, hkeys]
      exact hk
    · rintro rfl
      cases hq
    · by_cases hfind : q = .findParticipantKeys
      · subst hfind
        exact (keysRead_stored hr).elim (hI.read i b s (next_ne_none ht)) id
      · rw [keysRead_append hfind] at hr
        exact hI.read i b s (next_ne_none ht) hr

/-- A new operation has read nothing. -/
theorem KeyInv.spawn (hs : Sound cfg w c) (hI : KeyInv cfg c) (req : Request) :
    KeyInv cfg (c.spawn (escrowSystem cfg) req) := by
  refine ⟨hI.arbiter, hI.address, fun haddr => ?_, fun i b s hn hr => ?_, hI.log⟩
  · refine (hI.commit haddr).imp_right fun ⟨i, hi⟩ => ⟨i, ?_⟩
    rwa [next_spawn_of_ne]
    rintro rfl
    rw [next_length le_rfl] at hi
    cases hi
  · by_cases hi : i = c.threads.length
    · subst hi
      rw [own_spawn, hs.conforms.own_length le_rfl] at hr
      cases hr
    · rw [next_spawn_of_ne hi] at hn
      exact hI.read i b s hn hr

/-- A crash that does not leave the arbiter key uncommitted. -/
theorem KeyInv.kill {t : Thread Call.Ans Err Unit Request} (hI : KeyInv cfg c)
    (hA : keepsCommittedKeys c (.crash i) = true) : KeyInv cfg (c.kill i t) := by
  refine ⟨hI.arbiter, hI.address, fun haddr => ?_, fun j b s hn hr => ?_, hI.log⟩
  · refine (hI.commit haddr).elim Or.inl fun ⟨j, hj⟩ => ?_
    by_cases hij : j = i
    · subst hij
      rw [keepsCommittedKeys, hj] at hA
      exact Or.inl (Option.isSome_iff_ne_none.mp hA)
    · exact Or.inr ⟨j, by rwa [next_kill_of_ne hij]⟩
  · by_cases hij : j = i
    · subst hij
      exact absurd next_kill_self hn
    · rw [next_kill_of_ne hij] at hn
      exact hI.read j b s hn hr

end Steps

/-- In a run that keeps its committed keys, the stored address is the address of the three
stored keys whenever no operation is in flight. -/
theorem address_matches_stored_keys (cfg : Settings) (w : World) (as : List Step)
    (hw : w.escrow.type = .multisig) (haddr : w.escrow.multisigAddr = none)
    (harb : w.keys.arbiter = none)
    (hA : Along (escrowSystem cfg) (fun c a => keepsCommittedKeys c a = true) (Config.init w) as)
    (hq : (reach cfg w as).quiescent = true) :
    (reach cfg w as).store.addressMatchesKeys = true := by
  have hinit : KeyInv cfg (Config.init w) := by
    refine ⟨fun a ha => ?_, fun a ha => ?_, fun hne => absurd haddr hne, fun i b k _ hr => ?_,
      fun i => ⟨?_, ?_, ?_, ?_, ?_⟩⟩
    · exact absurd (harb.symm.trans ha) (by simp)
    · exact absurd (haddr.symm.trans ha) (by simp)
    · cases hr
    all_goals
      intros
      contradiction
  have hI := run_induction (I := KeyInv cfg) hinit (fun hs hI _ => hI.spawn hs _)
    (fun hs hI hA ht hg => hI.answer hs hw hA ht hg) (fun _ hI hA _ => hI.kill hA) as hA
  exact hI.2.matches hq

/-- Both parties submit their key. -/
def submittedKeys : List Step :=
  .start (.submitParticipantKey 1 keyOne.hex (some .multisigV1)) :: calls 0 4 ++
    .start (.submitParticipantKey 2 keyTwo.hex (some .multisigV1)) :: calls 1 7

/-- The address of two submitted keys and the arbiter key. -/
theorem address_matches_stored_keys_submitted :
    ((reach .plain (.plain .multisig .created) submittedKeys).store.escrow.multisigAddr.isSome ∧
      Along (escrowSystem .plain) (fun c a => keepsCommittedKeys c a = true)
        (Config.init (.plain .multisig .created)) submittedKeys) ∧
    (reach .plain (.plain .multisig .created) submittedKeys).store.addressMatchesKeys = true :=
  ⟨by decide +kernel, address_matches_stored_keys .plain (.plain .multisig .created) submittedKeys
    rfl rfl rfl (by decide +kernel) (by decide +kernel)⟩

/-- The buyer submits another key after the address is stored. -/
def resubmittedKey : List Step :=
  submittedKeys ++
    .start (.submitParticipantKey 1 keyThree.hex (some .multisigV1)) :: calls 2 4

/-- The stored address is not the address of the stored keys any more. -/
theorem resubmitted_key_mismatch :
    (reach .plain (.plain .multisig .created) resubmittedKey).quiescent = true ∧
      (reach .plain (.plain .multisig .created) resubmittedKey).store.addressMatchesKeys
        = false := by
  decide +kernel

end Sails
