import Civicos.Documents.Lifecycle
import Civicos.Documents.Workers

/-!
# The clean-up of abandoned uploads

The clean-up remembers the keys and the rows that it found, destroys the objects, collects the rows
that are still pending, and deletes them by their keys. Nothing stops a document from leaving its
pending state in between, and one protected row ends the whole run.
-/
namespace Civicos.Documents

open Library Library.Transaction

variable {cfg : Settings} {e : Choice} {s t : Store} {d a : Document} {p q : Worker} {i : ℕ}

/-! ## The work of one run -/

def Worker.isCleanup : Worker → Bool
  | .cleanup | .cleaning .. | .collected .. | .cleaned _ => true
  | _ => false

/-- The blocks that a run of the clean-up still needs at most. -/
def Worker.work : Worker → ℕ
  | .cleaning _ keys _ rest => keys.length + 2 + 3 * rest.length
  | .collected _ _ rest => 1 + 3 * rest.length
  | _ => 0

theorem work_nextStale {stale rest : List (ℕ × Option Key)} :
    (Worker.nextStale stale rest).work ≤ 3 * rest.length := by
  unfold Worker.nextStale
  split
  next => exact Nat.zero_le _
  next hrest =>
    have hkeys : ((rest.take 500).filterMap (·.2)).length ≤ min 500 rest.length := by
      refine (List.length_filterMap_le _ _).trans ?_
      rw [List.length_take]
    have hpos : 0 < rest.length := List.length_pos_of_ne_nil hrest
    simp only [Worker.work, List.length_drop]
    omega

theorem isCleanup_nextStale {stale rest : List (ℕ × Option Key)} :
    (Worker.nextStale stale rest).isCleanup = true := by
  unfold Worker.nextStale
  split <;> rfl

/-! ## What a run of the clean-up knows -/

/-- The document is pending or gone. -/
def Store.Stale (s : Store) (i : ℕ) : Prop :=
  i < s.documents.next ∧ ∀ d ∈ s.documents.rows, d.pk = i → d.scanStatus = .pendingUpload

/-- The document is not pending any longer, or gone. -/
def Store.Settled (s : Store) (i : ℕ) : Prop :=
  i < s.documents.next ∧ ∀ d ∈ s.documents.rows, d.pk = i → d.scanStatus ≠ .pendingUpload

def StaleEntry (s : Store) (x : ℕ × Option Key) : Prop :=
  s.Stale x.1 ∧ ∀ k, x.2 = some k → k.document = x.1

/-- What is left of the snapshot is stale, the rest of it is settled. -/
def Worker.Sweeps (s : Store) : Worker → Prop
  | .cleaning stale keys chunk rest => (∀ k ∈ keys, s.Stale k.document) ∧
    (∀ x ∈ rest, StaleEntry s x) ∧
    ∀ x ∈ stale, x.1 < s.documents.next ∧ (x.1 ∈ chunk ∨ x ∈ rest ∨ s.Settled x.1)
  | .collected stale pks rest => (∀ i ∈ pks, s.Stale i) ∧ (∀ x ∈ rest, StaleEntry s x) ∧
    ∀ x ∈ stale, x.1 ∈ pks ∨ x ∈ rest ∨ s.Settled x.1
  | .cleaned stale => ∀ x ∈ stale, s.Settled x.1
  | _ => True

/-- The documents that a run of the clean-up still has before it. -/
def Worker.claims : Worker → ℕ → Bool
  | .cleaning _ keys _ rest, i => keys.any (·.document = i) || rest.any (·.1 = i)
  | .collected _ pks rest, i => i ∈ pks || rest.any (·.1 = i)
  | _, _ => false

/-- A block that may move a document out of its pending state. -/
def Worker.settles (s : Store) (p : Worker) (i : ℕ) : Bool :=
  match p with
  | .calling (.softDelete document _ _) | .calling (.markPurposeFulfilled document _)
  | .disposing (document :: _) _ =>
    document.pk = i ∧ s.documents.rows.any fun d => d.pk = i ∧ d.legalHold = false
  | .calling (.confirmUpload _ document) => document = i ∧ s.documents.rows.any fun d =>
    d.pk = i ∧ d.storageKey.any fun k => (s.objects k).isSome
  | _ => false

/-- The clean-up does not meet a row that is protected. -/
def Worker.Unprotected (s : Store) : Worker → Prop
  | .cleaning _ [] chunk _ => ∀ d ∈ s.documents.rows, d.pk ∈ chunk →
    d.scanStatus = .pendingUpload → s.isProtected d = false
  | .collected _ pks _ => ∀ d ∈ s.documents.rows, d.pk ∈ pks → s.isProtected d = false
  | _ => True

instance (s : Store) (p : Worker) : Decidable (p.Unprotected s) := by
  unfold Worker.Unprotected
  split <;> infer_instance

/-- No document leaves its pending state while a run of the clean-up has it before it, and no run
meets a row that is protected. -/
def Unclaimed (s : Pool.State Store Worker) : Pool.Label Worker Choice Event → Prop
  | .act i _ => ∀ p ∈ s.workers[i]?, p.Unprotected s.store ∧
    ∀ r ∈ s.workers, ∀ d ∈ s.store.documents.rows, r.claims d.pk = true →
      p.settles s.store d.pk = false
  | _ => True

instance (s : Pool.State Store Worker) (l : Pool.Label Worker Choice Event) :
    Decidable (Unclaimed s l) := by
  unfold Unclaimed
  split <;> infer_instance

theorem Change.stale (h : Change cfg e s p t) (hs : s.Stale i)
    (hsettles : ∀ d ∈ s.documents.rows, d.pk = i → p.settles s i = false) : t.Stale i := by
  refine ⟨lt_of_lt_of_le hs.1 h.next_le, fun a ha hpk => ?_⟩
  rcases h.origin ha with ⟨d, hd, hrow⟩ | hfresh
  · have hdpk : d.pk = i := hrow.pk_eq.symm.trans hpk
    have hpending := hs.2 d hd hdpk
    have hsettles := hsettles d hd hdpk
    cases hrow with
    | kept | flagged => exact hpending
    | touched touch =>
      cases touch with
      | softDeleted hpk' hheld | expired hpk' hheld | fulfilled hpk' hheld =>
        have hspared : ∀ x ∈ s.documents.rows, x.pk = i → x.legalHold = true := by
          simpa [Worker.settles, hpk'.symm.trans hdpk] using hsettles
        rw [hspared d hd hdpk] at hheld
        cases hheld
      | confirmed _ hkey hobject =>
        have hempty : ∀ x ∈ s.documents.rows, x.pk = i →
            (x.storageKey.any fun k => (s.objects k).isSome) = false := by
          simpa [Worker.settles, hdpk] using hsettles
        have hnone := hempty d hd hdpk
        rw [hkey, Option.any_some, hobject] at hnone
        cases hnone
      | purged hstatus | bypassed _ hstatus | promoted hstatus | activated hstatus
      | quarantined _ hstatus | failed hstatus =>
        rw [hpending] at hstatus
        cases hstatus
      | held | released => exact hpending
  · exact absurd (hfresh.pk_eq.symm.trans hpk) (Nat.ne_of_gt hs.1)

theorem not_moves_pending {x : ScanStatus} : ¬ Moves x .pendingUpload := by
  intro h
  cases h

theorem Change.settled (h : Change cfg e s p t) (hsound : s.Sound) (hs : s.Settled i) :
    t.Settled i := by
  refine ⟨lt_of_lt_of_le hs.1 h.next_le, fun a ha hpk hpending => ?_⟩
  rcases h.origin ha with ⟨d, hd, hrow⟩ | hfresh
  · have hdpk : d.pk = i := hrow.pk_eq.symm.trans hpk
    rcases h.moves hsound hd ha hrow.pk_eq with hsame | hmove
    · exact hs.2 d hd hdpk (hsame.symm.trans hpending)
    · exact not_moves_pending (hpending ▸ hmove)
  · exact absurd (hfresh.pk_eq.symm.trans hpk) (Nat.ne_of_gt hs.1)

theorem env_stale {x : Event} (h : (documents cfg).env s x = some t) (hs : s.Stale i) :
    t.Stale i := by
  refine ⟨lt_of_lt_of_le hs.1 (env_rows h).2.2, fun a ha hpk => ?_⟩
  rcases (env_rows h).2.1 a ha with ha | ⟨document, file, rfl⟩
  · exact hs.2 a ha hpk
  · exact absurd hpk (Nat.ne_of_gt hs.1)

theorem env_settled {x : Event} (h : (documents cfg).env s x = some t) (hs : s.Settled i) :
    t.Settled i := by
  refine ⟨lt_of_lt_of_le hs.1 (env_rows h).2.2, fun a ha hpk => ?_⟩
  rcases (env_rows h).2.1 a ha with ha | ⟨document, file, rfl⟩
  · exact hs.2 a ha hpk
  · exact absurd hpk (Nat.ne_of_gt hs.1)

/-- What a run of the clean-up knows stays true of the documents that it has before it. -/
theorem Worker.Sweeps.stable (h : p.Sweeps s) (hnext : s.documents.next ≤ t.documents.next)
    (hstale : ∀ i, p.claims i = true → s.Stale i → t.Stale i)
    (hsettled : ∀ i, s.Settled i → t.Settled i) : p.Sweeps t := by
  have hrest {rest : List (ℕ × Option Key)} {x : ℕ × Option Key} (hx : x ∈ rest) :
      (rest.any fun y => y.1 = x.1) = true := List.any_eq_true.mpr ⟨x, hx, by simp⟩
  cases p with
  | cleaning stale keys chunk rest =>
    obtain ⟨hkeys, hentries, hdone⟩ := h
    refine ⟨fun k hk => hstale _ ?_ (hkeys k hk), fun x hx => ⟨hstale _ ?_ (hentries x hx).1,
      (hentries x hx).2⟩, fun x hx => ⟨lt_of_lt_of_le (hdone x hx).1 hnext,
      (hdone x hx).2.imp_right (Or.imp_right (hsettled _))⟩⟩
    · have hany : (keys.any fun k' => k'.document = k.document) = true :=
        List.any_eq_true.mpr ⟨k, hk, by simp⟩
      simp only [Worker.claims, hany, Bool.true_or]
    · simp only [Worker.claims, hrest hx, Bool.or_true]
  | collected stale pks rest =>
    obtain ⟨hpks, hentries, hdone⟩ := h
    refine ⟨fun i hi => hstale _ ?_ (hpks i hi), fun x hx => ⟨hstale _ ?_ (hentries x hx).1,
      (hentries x hx).2⟩, fun x hx => (hdone x hx).imp_right (Or.imp_right (hsettled _))⟩
    · simp [Worker.claims, hi]
    · simp only [Worker.claims, hrest hx, Bool.or_true]
  | cleaned stale => exact fun x hx => hsettled _ (h x hx)
  | _ => trivial

/-! ## The blocks of the clean-up itself -/

theorem stale_of_pending {x : ℕ × Option Key} (hs : s.Sound) (h : x ∈ s.stalePending cfg) :
    StaleEntry s x := by
  obtain ⟨d, hd, rfl⟩ := List.mem_map.mp h
  obtain ⟨hd, hprop⟩ := List.mem_filter.mp hd
  refine ⟨⟨s.documents.used d hd, fun a ha hpk => ?_⟩, (hs d hd).own⟩
  rw [Table.eq_of_pk ha hd hpk]
  exact (of_decide_eq_true hprop).1

/-- A new chunk, of what is left of the snapshot. -/
theorem sweeps_nextStale {stale rest : List (ℕ × Option Key)}
    (hrest : ∀ x ∈ rest, StaleEntry s x) (hdone : ∀ x ∈ stale, x ∈ rest ∨ s.Settled x.1) :
    (Worker.nextStale stale rest).Sweeps s := by
  unfold Worker.nextStale
  split
  next hnil =>
    intro x hx
    rcases hdone x hx with hmem | hsettled
    · rw [hnil] at hmem
      cases hmem
    · exact hsettled
  next =>
    refine ⟨fun k hk => ?_, fun x hx => hrest x (List.mem_of_mem_drop hx), fun x hx => ?_⟩
    · obtain ⟨x, hx, hkey⟩ := List.mem_filterMap.mp hk
      obtain ⟨hstale, hown⟩ := hrest x (List.mem_of_mem_take hx)
      exact hown k hkey ▸ hstale
    · rcases hdone x hx with hmem | hsettled
      · refine ⟨(hrest x hmem).1.1, ?_⟩
        rw [← List.take_append_drop 500 rest, List.mem_append] at hmem
        rcases hmem with hmem | hmem
        · exact .inl (List.mem_map.mpr ⟨x, hmem, rfl⟩)
        · exact .inr (.inl hmem)
      · exact ⟨hsettled.1, .inr (.inr hsettled)⟩

theorem Next.sweeps (h : Next cfg e s t p q) (hsound : s.Sound) (hp : p.Sweeps t) :
    q.Sweeps t := by
  cases h with
  | cleanup hs =>
    subst hs
    exact sweeps_nextStale (fun x hx => stale_of_pending hsound hx) fun x hx => .inl hx
  | swept =>
    obtain ⟨hkeys, hrest⟩ := hp
    exact ⟨fun k hk => hkeys k (List.mem_cons_of_mem _ hk), hrest⟩
  | collected hrun =>
    obtain ⟨rfl, hpks⟩ := collectStale_ok hrun
    obtain ⟨-, hentries, hdone⟩ := hp
    refine ⟨fun i hi => ?_, hentries, fun x hx => ?_⟩
    · obtain ⟨-, d, hd, rfl, hpending⟩ := (hpks i).mp hi
      refine ⟨t.documents.used d hd, fun a ha hpk => ?_⟩
      rw [Table.eq_of_pk ha hd hpk]
      exact hpending
    · obtain ⟨hlt, hchunk | hmem⟩ := hdone x hx
      · by_cases hpending : ∃ d ∈ t.documents.rows, d.pk = x.1 ∧ d.scanStatus = .pendingUpload
        · exact .inl ((hpks x.1).mpr ⟨hchunk, hpending⟩)
        · exact .inr (.inr ⟨hlt, fun d hd hpk hstatus => hpending ⟨d, hd, hpk, hstatus⟩⟩)
      · exact .inr hmem
  | @deleted stale rest pks hrun =>
    obtain ⟨hpks, hentries, hdone⟩ := hp
    refine sweeps_nextStale hentries fun x hx => ?_
    rcases hdone x hx with hmem | hmem
    · -- The rows have gone.
      refine .inr ⟨(hpks _ hmem).1, fun a ha hpk => ?_⟩
      obtain ⟨-, rfl⟩ := deleteDocuments_ok hrun
      obtain ⟨-, hstays⟩ := List.mem_filter.mp (Numbered.rows_keep ▸ ha)
      simp [hpk, hmem] at hstays
    · exact hmem
  | _ => trivial

/-! ## The job -/

theorem collectStale_returns {chunk : List ℕ} (h : ∀ d ∈ s.documents.rows, d.pk ∈ chunk →
    d.scanStatus = .pendingUpload → s.isProtected d = false) :
    ∃ pks, collectStale chunk s = .ok (pks, s) := by
  have hfree : ((s.documents.rows.filter fun d =>
      d.pk ∈ chunk ∧ d.scanStatus = .pendingUpload).any s.isProtected) = false := by
    rw [List.any_eq_false]
    intro d hd
    obtain ⟨hd, hprop⟩ := List.mem_filter.mp hd
    obtain ⟨hchunk, hpending⟩ := of_decide_eq_true hprop
    rw [h d hd hchunk hpending]
    exact Bool.false_ne_true
  exact ⟨_, by simp only [collectStale, bind_of_ok get_apply, hfree]; rfl⟩

theorem deleteCollected_returns {pks : List ℕ}
    (h : ∀ d ∈ s.documents.rows, d.pk ∈ pks → s.isProtected d = false) :
    deleteCollected pks s = .ok ((), s.drop (·.pk ∈ pks)) := by
  have hfree : (s.documents.rows.any fun d => decide (d.pk ∈ pks) && s.isProtected d) = false := by
    rw [List.any_eq_false]
    intro d hd
    by_cases hmem : d.pk ∈ pks
    · simp [h d hd hmem]
    · simp [hmem]
  simp only [deleteCollected, deleteDocuments, bind_of_ok get_apply, hfree]
  rfl

/-- The row has gone, or the object under its key. -/
def Lost (s t : Store) (d : Document) : Prop :=
  (∀ a ∈ t.documents.rows, a.pk ≠ d.pk) ∨
    ∃ k, d.storageKey = some k ∧ (s.objects k).isSome = true ∧ t.objects k = none

theorem sweeps_of_reachable {s : Pool.State Store Worker}
    (h : ((documents cfg).machine.under Unclaimed).Reachable s) :
    s.store.Sound ∧ ∀ p ∈ s.workers, p.Sweeps s.store := by
  refine Program.invariant_under (I := Store.Sound) (J := fun s p => p.Sweeps s) ?_ ?_ ?_ ?_ ?_ h
  · exact fun _ => sound_init
  · intro st p _ hentry
    cases p <;> trivial
  · intro st _
    trivial
  · intro s i p e st q hc hI hJ hp hact
    have hchange := (act_change hact).2
    have hmem := List.mem_of_getElem? hp
    have hkept (r : Worker) (hr : r ∈ s.workers) : r.Sweeps st := by
      refine (hJ r hr).stable hchange.next_le (fun i hclaims hstale => ?_)
        fun i hsettled => hchange.settled hI hsettled
      refine hchange.stale hstale fun d hd hpk => ?_
      subst hpk
      exact (hc p hp).2 r hr d hd hclaims
    exact ⟨hchange.sound hI, (act_next hact).sweeps hI (hkept p hmem),
      fun j r _ hr => hkept r (List.mem_of_getElem? hr)⟩
  · intro s x st _ hI hJ henv
    exact ⟨env_sound hI henv, fun r hr => (hJ r hr).stable (env_rows henv).2.2
      (fun i _ => env_stale henv) fun i => env_settled henv⟩

/-- A block of the clean-up runs, brings it closer to its end and loses nothing that is not
pending. -/
theorem cleanup_block (hsound : s.Sound) (hp : p.Sweeps s) (hfree : p.Unprotected s)
    (hjob : p.isCleanup = true) (hopen : ∀ stale, p ≠ .cleaned stale) :
    ∃ t q, p.act cfg s e = some (t, q) ∧ q.isCleanup = true ∧ (p ≠ .cleanup → q.work < p.work) ∧
      ∀ d ∈ s.documents.rows, Lost s t d → d.scanStatus = .pendingUpload := by
  have hsame (d : Document) (hd : d ∈ s.documents.rows) (hlost : Lost s s d) :
      d.scanStatus = .pendingUpload := by
    rcases hlost with hgone | ⟨k, -, hsome, hnone⟩
    · exact absurd rfl (hgone d hd)
    · rw [hnone] at hsome
      cases hsome
  cases p with
  | cleanup =>
    exact ⟨s, _, rfl, isCleanup_nextStale, fun h => absurd rfl h, hsame⟩
  | cleaning stale keys chunk rest =>
    cases keys with
    | cons k keys =>
      refine ⟨_, _, rfl, rfl, fun _ => by simp only [Worker.work, List.length_cons]; omega,
        fun d hd hlost => ?_⟩
      split at hlost
      next =>
        rcases hlost with hgone | ⟨k', hkey, hsome, hnone⟩
        · exact absurd rfl (hgone d hd)
        · by_cases hk : k' = k
          · subst hk
            exact (hp.1 k' List.mem_cons_self).2 d hd ((hsound d hd).own k' hkey).symm
          · have hkept : (s.store k none).objects k' = s.objects k' := Function.update_of_ne hk _ _
            rw [← hkept, hnone] at hsome
            cases hsome
      next => exact hsame d hd hlost
    | nil =>
      obtain ⟨pks, hrun⟩ := collectStale_returns hfree
      refine ⟨s, .collected stale pks rest, by simp only [Worker.act, commit_of_ok hrun], rfl,
        fun _ => by simp only [Worker.work, List.length_nil]; omega, hsame⟩
  | collected stale pks rest =>
    have hrun := deleteCollected_returns hfree
    refine ⟨s.drop (·.pk ∈ pks), Worker.nextStale stale rest,
      by simp only [Worker.act, commit_of_ok hrun], isCleanup_nextStale,
      fun _ => ?_, fun d hd hlost => ?_⟩
    · have hle : (Worker.nextStale stale rest).work ≤ 3 * rest.length := work_nextStale
      have hwork : (Worker.collected stale pks rest).work = 1 + 3 * rest.length := rfl
      omega
    · by_cases hmem : d.pk ∈ pks
      · exact (hp.1 _ hmem).2 d hd rfl
      · rcases hlost with hgone | ⟨k, -, hsome, hnone⟩
        · refine absurd rfl (hgone d (List.mem_filter.mpr ⟨hd, by simp [hmem]⟩))
        · have hkept : (s.drop (·.pk ∈ pks)).objects k = s.objects k := rfl
          rw [← hkept, hnone] at hsome
          cases hsome
  | cleaned stale => exact absurd rfl (hopen stale)
  | _ => cases hjob

/-- In every run in which no document leaves its pending state in front of the clean-up, and in
which the clean-up meets no protected row: each block of the clean-up runs, brings it closer to its
end and loses pending documents only; and at the end nothing of what it has found is pending. -/
theorem cleanup_safe {s : Pool.State Store Worker}
    (h : ((documents cfg).machine.under Unclaimed).Reachable s) (hp : s.workers[i]? = some p)
    (hjob : p.isCleanup = true) (hc : Unclaimed s (.act i e)) :
    (∀ stale, p = .cleaned stale → ∀ d ∈ s.store.documents.rows, d.pk ∈ stale.map (·.1) →
      d.scanStatus ≠ .pendingUpload) ∧
    ((∀ stale, p ≠ .cleaned stale) → ∃ t q, (documents cfg).machine.step s (.act i e) = some t ∧
      t.workers[i]? = some q ∧ q.isCleanup = true ∧ (p ≠ .cleanup → q.work < p.work) ∧
      ∀ d ∈ s.store.documents.rows, Lost s.store t.store d → d.scanStatus = .pendingUpload) := by
  obtain ⟨hsound, hsweeps⟩ := sweeps_of_reachable h
  have hsweep := hsweeps p (List.mem_of_getElem? hp)
  constructor
  · rintro stale rfl d hd hmem
    obtain ⟨x, hx, hpk⟩ := List.mem_map.mp hmem
    exact (hsweep x hx).2 d hd hpk.symm
  · intro hopen
    obtain ⟨t, q, hact, hq, hwork, hlost⟩ := cleanup_block (e := e) hsound hsweep (hc p hp).1 hjob
      hopen
    refine ⟨⟨t, s.workers.set i q⟩, q, ?_, ?_, hq, hwork, hlost⟩
    · exact Option.bind_eq_some_iff.mpr ⟨p, hp, Option.map_eq_some_iff.mpr ⟨_, hact, rfl⟩⟩
    · exact List.getElem?_set_self (List.getElem?_eq_some_iff.mp hp).1

/-- An upload whose URL has expired, and a run of the clean-up that has found it. -/
def foundUpload : List (Pool.Label Worker Choice Event) :=
  [.spawn (.uploading officer "evidence" ⟨"copy.pdf", "application/pdf", 3⟩), .act 0 { token := 5 },
    .act 0 {}, .env (.overwrite ⟨.quarantine, 1, 5⟩ [80]), .env (.pass (seconds 1200)),
    .spawn .cleanup, .act 1 {}]

def foundStore : Pool.State Store Worker :=
  ((documents plainSettings).machine.under Unclaimed).final ⟨emptyStore, []⟩ foundUpload

theorem foundUpload_safe : ∃ t q,
    (documents plainSettings).machine.step foundStore (.act 1 {}) = some t ∧
    t.workers[1]? = some q ∧ q.work < 3 ∧
    ∀ d ∈ foundStore.store.documents.rows, Lost foundStore.store t.store d →
      d.scanStatus = .pendingUpload := by
  have hreach := Machine.Reachable.final (M := (documents plainSettings).machine.under Unclaimed)
    (s := ⟨emptyStore, []⟩) ⟨init_emptyStore plainSettings, rfl⟩ foundUpload
  have hp : foundStore.workers[1]? = some (.cleaning [(1, some ⟨.quarantine, 1, 5⟩)]
      [⟨.quarantine, 1, 5⟩] [1] []) := by decide +kernel
  obtain ⟨t, q, hstep, hq, -, hwork, hlost⟩ := (cleanup_safe (e := {}) hreach hp rfl
    (by decide +kernel)).2 fun stale h => by cases h
  exact ⟨t, q, hstep, hq, hwork fun h => (by cases h), hlost⟩

/-- The upload is confirmed before its object is destroyed. -/
def lateConfirmation : Pool.State Store Worker :=
  (documents plainSettings).machine.final ⟨emptyStore, []⟩
    (foundUpload ++ [.spawn (.calling (.confirmUpload officer.pk 1)), .act 2 {}])

theorem lateConfirmation_fails : ¬ ∀ (s t : Pool.State Store Worker) (i : ℕ) (p : Worker),
    (documents plainSettings).machine.Reachable s → s.workers[i]? = some p → p.isCleanup = true →
    (documents plainSettings).machine.step s (.act i {}) = some t →
    ∀ d ∈ s.store.documents.rows, Lost s.store t.store d → d.scanStatus = .pendingUpload := by
  intro h
  have hreach : (documents plainSettings).machine.Reachable lateConfirmation :=
    Machine.Reachable.final (M := (documents plainSettings).machine)
      (s := ⟨emptyStore, []⟩) ⟨init_emptyStore plainSettings, rfl⟩ _
  have hp : lateConfirmation.workers[1]? = some (.cleaning [(1, some ⟨.quarantine, 1, 5⟩)]
      [⟨.quarantine, 1, 5⟩] [1] []) := by decide +kernel
  have hrow : lateConfirmation.store.documents.rows.any (fun d => d.scanStatus = .scanning ∧
      d.storageKey = some ⟨.quarantine, 1, 5⟩) = true := by decide +kernel
  obtain ⟨d, hd, hprop⟩ := List.any_eq_true.mp hrow
  obtain ⟨hscanning, hkey⟩ := of_decide_eq_true hprop
  have hpending := h _ _ 1 _ hreach hp rfl (Machine.step_final (by decide +kernel)) d hd
    (.inr ⟨_, hkey, by decide +kernel, by decide +kernel⟩)
  rw [hscanning] at hpending
  cases hpending

end Civicos.Documents
