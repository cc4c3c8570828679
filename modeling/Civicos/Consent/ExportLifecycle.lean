import Civicos.Consent.DataExports
import Civicos.Documents.Keys
import Mathlib.Data.List.Nodup

/-!
# The life of a data export

Two invariants of any run carry what holds of the downloads: a request that is ready has an expiry,
and the one download that is committed takes the token. Links last only in runs that are careful: a
second run for the same request writes over the link of the first, and a run that stops after it has
created a document leaves it without one.
-/
namespace Civicos.Consent

open Library Library.Transaction
open Documents (Instant Content Document)

/-! ## Deliveries -/

section Sound

variable {cfg : ExportSettings} {e : ExportChoice} {s t : ExportStore} {p q : ExportWorker}
  {k : ℕ} {f : DataExportRequest → DataExportRequest} {r : DataExportRequest}

theorem SavesAside.completed {now ttl : ℕ} {document : Option ℕ} :
    SavesAside (.completed now ttl document) where
  pk _ := rfl
  downloadToken _ := rfl
  ready _ _ := nofun

/-- Where a row comes from that is there after a save. -/
theorem row_of_update (h : s.requests.update k f = .ok t.requests) (hf : ∀ r, (f r).pk = r.pk)
    (hr : r ∈ t.requests.rows) : ∃ a ∈ s.requests.rows, r.pk = a.pk ∧
      (a.pk = k ∧ r = f a ∨ a.pk ≠ k ∧ r = a) := by
  obtain ⟨hrows, -⟩ := Numbered.update_rows h fun a hk => (hf a).trans hk
  rw [hrows] at hr
  obtain ⟨a, ha, rfl⟩ := List.mem_map.mp hr
  by_cases hk : a.pk = k
  · exact ⟨a, ha, (congrArg _ (if_pos hk)).trans (hf a), .inl ⟨hk, if_pos hk⟩⟩
  · exact ⟨a, ha, congrArg _ (if_neg hk), .inr ⟨hk, if_neg hk⟩⟩

/-- Where a row goes to in a save. -/
theorem mem_of_update (h : s.requests.update k f = .ok t.requests) (hf : ∀ r, (f r).pk = r.pk)
    (hr : r ∈ s.requests.rows) :
    (r.pk = k → f r ∈ t.requests.rows) ∧ (r.pk ≠ k → r ∈ t.requests.rows) := by
  obtain ⟨hrows, -⟩ := Numbered.update_rows h fun a hk => (hf a).trans hk
  have hmem : (if r.pk = k then f r else r) ∈ t.requests.rows :=
    hrows ▸ List.mem_map.mpr ⟨r, hr, rfl⟩
  constructor
  · intro hk
    rwa [if_pos hk] at hmem
  · intro hk
    rwa [if_neg hk] at hmem

/-- A delivery has found its request ready, and not past its expiry. -/
def Delivery.InTime (d : Delivery) : Prop :=
  d.request.status = .ready ∧ ∃ expiry, d.request.expiresAt = some expiry ∧ d.deliveredAt ≤ expiry

/-- A request that is ready has an expiry, and one that has been delivered has no token. -/
structure ExportStore.Sound (s : ExportStore) : Prop where
  ready : ∀ r ∈ s.requests.rows, r.status = .ready → r.expiresAt ≠ none
  token : ∀ r ∈ s.requests.rows, r.downloadToken ≠ none →
    ∀ d ∈ s.deliveries, d.request.pk ≠ r.pk
  known : ∀ d ∈ s.deliveries, d.request.pk < s.requests.next
  once : (s.deliveries.map (·.request.pk)).Nodup
  inTime : ∀ d ∈ s.deliveries, d.InTime

namespace ExportStore.Sound

theorem same (hs : s.Sound) (hreq : t.requests = s.requests) (hdel : t.deliveries = s.deliveries) :
    t.Sound where
  ready := hreq ▸ hs.ready
  token := by
    rw [hreq, hdel]
    exact hs.token
  known := by
    rw [hreq, hdel]
    exact hs.known
  once := hdel ▸ hs.once
  inTime := hdel ▸ hs.inTime

theorem saved (hs : s.Sound) (hf : SavesAside f) (h : s.requests.update k f = .ok t.requests)
    (hdel : t.deliveries = s.deliveries) : t.Sound where
  ready := by
    intro r hr hready
    obtain ⟨a, ha, -, ⟨-, rfl⟩ | ⟨-, rfl⟩⟩ := row_of_update h hf.pk hr
    · exact hf.ready a hready
    · exact hs.ready r ha hready
  token := by
    intro r hr htoken d hd
    obtain ⟨a, ha, hpk, hrow⟩ := row_of_update h hf.pk hr
    have hsame : r.downloadToken = a.downloadToken := by
      rcases hrow with ⟨-, rfl⟩ | ⟨-, rfl⟩
      · exact hf.downloadToken a
      · rfl
    rw [hpk]
    exact hs.token a ha (hsame ▸ htoken) d (hdel ▸ hd)
  known := by
    rw [(Numbered.update_rows h fun a hk => (hf.pk a).trans hk).2, hdel]
    exact hs.known
  once := hdel ▸ hs.once
  inTime := hdel ▸ hs.inTime

theorem delivered (hs : s.Sound) {req : DataExportRequest} {token : ℕ}
    (hreq : req ∈ s.requests.rows) (htoken : req.downloadToken = some token)
    (hready : req.status = .ready) (htime : req.expiresAt.any (· < s.now) = false)
    (h : s.requests.update req.pk .delivered = .ok t.requests)
    (hdel : t.deliveries = s.deliveries ++ [⟨req, s.now⟩]) : t.Sound where
  ready := by
    intro r hr hr'
    obtain ⟨a, ha, -, ⟨-, rfl⟩ | ⟨-, rfl⟩⟩ := row_of_update h (fun _ => rfl) hr
    · cases hr'
    · exact hs.ready r ha hr'
  token := by
    intro r hr hr' d hd
    obtain ⟨a, ha, -, ⟨-, rfl⟩ | ⟨hne, rfl⟩⟩ := row_of_update h (fun _ => rfl) hr
    · exact absurd rfl hr'
    · rw [hdel, List.mem_append, List.mem_singleton] at hd
      rcases hd with hd | rfl
      · exact hs.token r ha hr' d hd
      · exact Ne.symm hne
  known := by
    rw [(Numbered.update_rows h fun _ hk => hk).2, hdel]
    intro d hd
    rcases List.mem_append.mp hd with hd | hd
    · exact hs.known d hd
    · obtain rfl := List.mem_singleton.mp hd
      exact s.requests.used req hreq
  once := by
    have hnew := hs.token req hreq (by simp [htoken])
    rw [hdel, List.map_append, List.nodup_append]
    refine ⟨hs.once, List.pairwise_singleton _ _, fun a ha b hb => ?_⟩
    obtain ⟨d, hd, rfl⟩ := List.mem_map.mp ha
    obtain rfl := List.mem_singleton.mp hb
    exact hnew d hd
  inTime := by
    rw [hdel]
    intro d hd
    rcases List.mem_append.mp hd with hd | hd
    · exact hs.inTime d hd
    · obtain rfl := List.mem_singleton.mp hd
      obtain ⟨expiry, hexpiry⟩ := Option.ne_none_iff_exists'.mp (hs.ready req hreq hready)
      rw [hexpiry] at htime
      exact ⟨hready, expiry, hexpiry, not_lt.mp (of_decide_eq_false htime)⟩

theorem block (hs : s.Sound) (h : ExportBlock cfg e s t p q) : t.Sound := by
  cases h with
  | passed hreq hlogs => exact hs.same hreq hlogs.deliveries
  | loaded _ ht => exact ht ▸ hs
  | saved hplain hupdate hlogs => exact hs.saved hplain.toSavesAside hupdate hlogs.deliveries
  | created hreq _ _ _ _ hdeliveries => exact hs.same hreq hdeliveries
  | completed hupdate hlogs => exact hs.saved .completed hupdate hlogs.deliveries
  | removed hreq hlogs => exact hs.same hreq hlogs.deliveries
  | delivered hreq htoken hready htime hupdate _ _ hdeliveries =>
    exact hs.delivered hreq htoken hready htime hupdate hdeliveries
  | sent ht => exact hs.same (by rw [ht]) (by rw [ht])

end ExportStore.Sound

/-- What happens besides changes the documents, or adds a request without a document. -/
theorem env_requests {x : ExportEvent} (h : (exports cfg).env s x = some t) :
    s.Unrecorded t ∧ (t.requests = s.requests ∨
      ∃ r, r.pk = s.requests.next ∧ r.status = .pending ∧ r.document = none ∧
        t.requests.rows = s.requests.rows ++ [r] ∧ t.requests.next = s.requests.next + 1) := by
  cases x with
  | request citizen token =>
    obtain ⟨⟩ := h
    cases hrun : requestExport citizen token s with
    | error =>
      rw [commit_of_error hrun]
      exact ⟨.refl s, .inl rfl⟩
    | ok u =>
      rw [commit_of_ok (a := u.1) (t := u.2) hrun]
      obtain ⟨hlogs, hrow⟩ := requestExport_ok hrun
      exact ⟨hlogs, .inr hrow⟩
  | documents x =>
    obtain ⟨d, henv, rfl⟩ := Option.map_eq_some_iff.mp h
    exact ⟨⟨.of_inherits (Documents.env_inherits henv), rfl, rfl, rfl⟩, .inl rfl⟩

theorem ExportStore.Sound.env (hs : s.Sound) {x : ExportEvent}
    (h : (exports cfg).env s x = some t) : t.Sound := by
  obtain ⟨hlogs, hreq | ⟨r, hpk, hstatus, -, hrows, hnext⟩⟩ := env_requests h
  · exact hs.same hreq hlogs.deliveries
  · have hrow : ∀ a ∈ t.requests.rows, a ∈ s.requests.rows ∨ a = r := by
      simp [hrows]
    constructor
    · intro a ha hready
      rcases hrow a ha with ha | rfl
      · exact hs.ready a ha hready
      · cases hstatus.symm.trans hready
    · intro a ha htoken d hd
      rw [hlogs.deliveries] at hd
      rcases hrow a ha with ha | rfl
      · exact hs.token a ha htoken d hd
      · exact (hpk ▸ hs.known d hd).ne
    · intro d hd
      rw [hnext]
      exact (hs.known d (hlogs.deliveries ▸ hd)).trans (Nat.lt_succ_self _)
    · rw [hlogs.deliveries]
      exact hs.once
    · rw [hlogs.deliveries]
      exact hs.inTime

theorem sound_of_reachable {s : Pool.State ExportStore ExportWorker}
    (h : (exports cfg).machine.Reachable s) : s.store.Sound := by
  refine Program.store_invariant ?_ ?_ ?_ h
  · rintro st ⟨-, hreq, -, -, -, hdel, -⟩
    have hnone : ∀ r, r ∉ st.requests.rows := fun r hr => by
      rw [hreq] at hr
      cases hr
    exact {
      ready := fun r hr => (hnone r hr).elim
      token := fun r hr => (hnone r hr).elim
      known := by simp [hdel]
      once := by simp [hdel]
      inTime := by simp [hdel] }
  · intro st p e st' q hs hact
    exact hs.block (ExportWorker.act_block hact)
  · intro st x st' hs henv
    exact hs.env henv

/-- A worker that may still send the file of a request -/
def ExportWorker.permits (request : ℕ) (p : ExportWorker) : ℤ :=
  if p.sending = some request then 1 else 0

theorem permits_le (h : q.sending = none ∨ q.sending = p.sending) : q.permits k ≤ p.permits k := by
  unfold ExportWorker.permits
  rcases h with h | h
  · rw [h, if_neg nofun]
    split <;> omega
  · rw [h]

theorem ExportBlock.permits (h : ExportBlock cfg e s t p q) :
    q.permits k + (t.served.count k : ℤ) + ((s.deliveries.map (·.request.pk)).count k : ℤ) ≤
      p.permits k + (s.served.count k : ℤ) + ((t.deliveries.map (·.request.pk)).count k : ℤ) := by
  cases h with
  | passed _ hlogs hq | saved _ _ hlogs hq =>
    have := permits_le (k := k) hq.sending
    rw [hlogs.deliveries, hlogs.served]
    omega
  | loaded _ ht =>
    rw [ht]
    exact le_refl _
  | created _ _ _ _ _ hdeliveries hserved =>
    rw [hdeliveries, hserved]
    exact le_refl _
  | completed _ hlogs _ hsending =>
    have hzero : q.permits k = 0 := by
      unfold ExportWorker.permits
      rw [hsending, if_neg nofun]
    rw [hlogs.deliveries, hlogs.served, hzero]
    exact le_refl _
  | removed _ hlogs =>
    rw [hlogs.deliveries, hlogs.served]
    exact le_refl _
  | @delivered token user req _ _ _ _ _ _ _ _ hdeliveries hserved _ hsending =>
    have hone : q.permits k ≤ ([req.pk].count k : ℤ) := by
      unfold ExportWorker.permits
      rcases hsending with h | h
      · simp [h]
      · rw [h, List.count_singleton]
        split <;> simp_all
    rw [hdeliveries, hserved, List.map_append, List.count_append, Nat.cast_add]
    have hzero : (ExportWorker.downloading token user).permits k = 0 := rfl
    simp only [List.map_cons, List.map_nil, hzero]
    omega
  | @sent request key ht =>
    subst ht
    have hone : (ExportWorker.opening request key).permits k = ([request].count k : ℤ) := by
      rw [List.count_singleton]
      unfold ExportWorker.permits ExportWorker.sending
      split <;> simp_all
    have hzero : ExportWorker.ended.permits k = 0 := rfl
    rw [hone, hzero, List.count_append, Nat.cast_add]
    dsimp only
    omega

/-- Answers never outnumber deliveries. -/
theorem served_le {s : Pool.State ExportStore ExportWorker}
    (h : (exports cfg).machine.Reachable s) (request : ℕ) :
    s.store.served.count request ≤ (s.store.deliveries.map (·.request.pk)).count request := by
  have hnonneg : ∀ p : ExportWorker, 0 ≤ p.permits request := fun p => by
    unfold ExportWorker.permits
    split <;> omega
  have hcovered := Program.covered (P := exports cfg) (ExportWorker.permits request)
    (fun st => (st.served.count request : ℤ))
    (fun st => ((st.deliveries.map (·.request.pk)).count request : ℤ)) ?_ ?_ rfl hnonneg ?_ ?_ h
  · have hsum : 0 ≤ (s.workers.map (ExportWorker.permits request)).sum :=
      List.sum_nonneg fun n hn => by
        obtain ⟨p, -, rfl⟩ := List.mem_map.mp hn
        exact hnonneg p
    omega
  · rintro st ⟨-, -, -, -, -, hdel, hserved⟩
    simp [hdel, hserved]
  · intro p hp
    cases p with
    | processing | downloading | cleanup | documents => rfl
    | _ => cases hp
  · intro u i p e st q _ _ hact
    exact (ExportWorker.act_block hact).permits
  · intro u x st hu henv
    obtain ⟨hlogs, -⟩ := env_requests henv
    simp [hlogs.deliveries, hlogs.served]

end Sound

/-! ## Documents that are not lost -/

/-- No two runs of the task work on one request at a time, and no run stops or fails between
creating a document and linking it, unless it deletes the document again. -/
def Careful (s : Pool.State ExportStore ExportWorker)
    (l : Pool.Label ExportWorker ExportChoice ExportEvent) : Prop :=
  (s.workers.Pairwise fun p q => p.exporting = none ∨ p.exporting ≠ q.exporting) ∧
    match l with
    | .act i e => ∀ p ∈ s.workers[i]?, p.Settles s.store e
    | .die i => ∀ p ∈ s.workers[i]?, p.unlinked = none
    | _ => True

instance (s : Pool.State ExportStore ExportWorker)
    (l : Pool.Label ExportWorker ExportChoice ExportEvent) : Decidable (Careful s l) :=
  match l with
  | .act i e => inferInstanceAs (Decidable (_ ∧ ∀ p ∈ s.workers[i]?, p.Settles s.store e))
  | .die i => inferInstanceAs (Decidable (_ ∧ ∀ p ∈ s.workers[i]?, p.unlinked = none))
  | .spawn _ | .env _ => inferInstanceAs (Decidable (_ ∧ True))

section Linked

variable {cfg : ExportSettings} {e : ExportChoice} {s t : ExportStore} {p q : ExportWorker}
  {k : ℕ} {f : DataExportRequest → DataExportRequest} {r : DataExportRequest}

/-- Linked requests are not active, and exported documents have old numbers. -/
structure ExportStore.Orderly (s : ExportStore) : Prop where
  inactive : ∀ r ∈ s.requests.rows, r.document ≠ none → r.isActive = false
  exported : ∀ x ∈ s.exported, x.2 < s.documents.documents.next

/-- A run that has found no document is right. -/
def ExportWorker.Knows (s : ExportStore) (p : ExportWorker) : Prop :=
  ∀ k, p.fresh = some k → ∃ r ∈ s.requests.rows, r.pk = k ∧ r.document = none

theorem exporting_of_fresh (h : p.fresh = some k) : p.exporting = some k := by
  cases p with
  | guarding req => exact (Option.ite_none_right_eq_some.mp h).2
  | starting | building | storing | categorising | storingDocument | creating | scheduling
  | completing => exact h
  | _ => cases h

theorem exporting_of_unlinked {x : ℕ × ℕ} (h : p.unlinked = some x) : p.exporting = some x.1 := by
  cases p with
  | scheduling | undoingObject | undoingDocument => obtain rfl := Option.some.inj h; rfl
  | completing _ _ _ document | undoing _ _ document _ =>
    cases document with
    | none => cases h
    | some d => obtain rfl := Option.some.inj h; rfl
  | _ => cases h

theorem ExportWorker.Knows.of_fresh (hp : p.Knows s) (hq : q.fresh = none ∨ q.fresh = p.fresh) :
    q.Knows s := by
  intro k hk
  rcases hq with hq | hq
  · cases hq.symm.trans hk
  · exact hp k (hq ▸ hk)

/-- A save that changes no document of the request of a run -/
theorem ExportWorker.Knows.saved (hp : p.Knows s) (hf : ∀ r, (f r).pk = r.pk)
    (h : s.requests.update k f = .ok t.requests)
    (hkeep : ∀ r, p.fresh = some k → r.document = none → (f r).document = none) : p.Knows t := by
  intro j hj
  obtain ⟨r, hr, rfl, hnone⟩ := hp j hj
  obtain ⟨hsaved, hother⟩ := mem_of_update h hf hr
  by_cases hk : r.pk = k
  · exact ⟨f r, hsaved hk, hf r, hkeep r (hk ▸ hj) hnone⟩
  · exact ⟨r, hother hk, rfl, hnone⟩

namespace ExportBlock

theorem orderly (h : ExportBlock cfg e s t p q) (hs : s.Orderly) (hp : p.Knows s) : t.Orderly := by
  have hold (hages : s.Ages t) (hexported : t.exported = s.exported) :
      ∀ x ∈ t.exported, x.2 < t.documents.documents.next := fun x hx =>
    (hs.exported x (hexported ▸ hx)).trans_le hages.next_le
  cases h with
  | passed hreq hlogs | removed hreq hlogs =>
    exact ⟨hreq ▸ hs.inactive, hold hlogs.toAges hlogs.exported⟩
  | loaded _ ht => exact ht ▸ hs
  | saved hplain hupdate hlogs =>
    refine ⟨fun r hr hdocument => ?_, hold hlogs.toAges hlogs.exported⟩
    obtain ⟨a, ha, -, ⟨hk, rfl⟩ | ⟨-, rfl⟩⟩ := row_of_update hupdate hplain.pk hr
    · refine Bool.eq_false_of_not_eq_true fun hactive => ?_
      obtain ⟨b, hb, hbk, hnone⟩ := hp _ (hplain.active a hactive)
      obtain rfl := Table.eq_of_pk ha hb (hk.trans hbk.symm)
      exact hdocument ((hplain.document a).trans hnone)
    · exact hs.inactive r ha hdocument
  | created hreq _ hages hnext hexported =>
    refine ⟨hreq ▸ hs.inactive, fun x hx => ?_⟩
    rw [hexported] at hx
    rcases List.mem_append.mp hx with hx | hx
    · exact (hs.exported x hx).trans_le hages.next_le
    · obtain rfl := List.mem_singleton.mp hx
      exact hnext
  | completed hupdate hlogs =>
    refine ⟨fun r hr hdocument => ?_, hold hlogs.toAges hlogs.exported⟩
    obtain ⟨a, ha, -, ⟨-, rfl⟩ | ⟨-, rfl⟩⟩ := row_of_update hupdate (fun _ => rfl) hr
    · rfl
    · exact hs.inactive r ha hdocument
  | delivered _ _ _ _ hupdate hages hexported =>
    refine ⟨fun r hr hdocument => ?_, hold hages hexported⟩
    obtain ⟨a, ha, -, ⟨-, rfl⟩ | ⟨-, rfl⟩⟩ := row_of_update hupdate (fun _ => rfl) hr
    · rfl
    · exact hs.inactive r ha hdocument
  | sent ht =>
    subst ht
    exact ⟨hs.inactive, hs.exported⟩

/-- What the worker knows that takes a block. -/
theorem knows (h : ExportBlock cfg e s t p q) (hp : p.Knows s) : q.Knows t := by
  cases h with
  | passed hreq _ hq =>
    intro k hk
    exact hreq ▸ hp.of_fresh hq.fresh k hk
  | @loaded req hreq ht =>
    subst ht
    intro k hk
    obtain ⟨hnone, ⟨⟩⟩ := Option.ite_none_right_eq_some.mp hk
    exact ⟨req, (Numbered.get_eq_some.mp hreq).1, rfl, hnone⟩
  | saved hplain hupdate _ hq =>
    refine ExportWorker.Knows.saved (hp.of_fresh hq.fresh) hplain.pk hupdate fun r _ hnone => ?_
    exact (hplain.document r).trans hnone
  | created hreq =>
    intro k hk
    exact hreq ▸ hp k hk
  | completed _ _ hfresh =>
    intro k hk
    cases hfresh.symm.trans hk
  | removed => nofun
  | delivered _ _ _ _ _ _ _ _ _ hfresh =>
    intro k hk
    cases hfresh.symm.trans hk
  | sent => nofun

/-- What another worker knows, which does not work on the same request. -/
theorem knows_of_apart (h : ExportBlock cfg e s t p q) {w : ExportWorker} (hw : w.Knows s)
    (hapart : ∀ k, w.exporting = some k → p.exporting ≠ some k) : w.Knows t := by
  cases h with
  | passed hreq | created hreq | removed hreq =>
    intro k hk
    exact hreq ▸ hw k hk
  | loaded _ ht => exact ht ▸ hw
  | saved hplain hupdate =>
    exact hw.saved hplain.pk hupdate fun r _ hnone => (hplain.document r).trans hnone
  | completed hupdate =>
    refine hw.saved SavesAside.completed.pk hupdate fun r hfresh _ => ?_
    exact absurd rfl (hapart _ (exporting_of_fresh hfresh))
  | delivered _ _ _ _ hupdate =>
    exact hw.saved (f := .delivered) (fun _ => rfl) hupdate fun _ _ hnone => hnone
  | sent ht =>
    subst ht
    exact hw

end ExportBlock

theorem apart_of_careful {s : Pool.State ExportStore ExportWorker}
    {l : Pool.Label ExportWorker ExportChoice ExportEvent} (h : Careful s l) {i j : ℕ}
    (hi : s.workers[i]? = some p) (hj : s.workers[j]? = some q) (hij : j ≠ i)
    (hq : q.exporting = some k) : p.exporting ≠ some k := by
  have hpairs := List.pairwise_iff_getElem.mp h.1
  obtain ⟨hil, rfl⟩ := List.getElem?_eq_some_iff.mp hi
  obtain ⟨hjl, rfl⟩ := List.getElem?_eq_some_iff.mp hj
  intro hp
  rcases Nat.lt_or_gt_of_ne hij with hlt | hlt
  · rcases hpairs j i hjl hil hlt with hnone | hne
    · cases hnone.symm.trans hq
    · exact hne (hq.trans hp.symm)
  · rcases hpairs i j hil hjl hlt with hnone | hne
    · cases hnone.symm.trans hp
    · exact hne (hp.trans hq.symm)

theorem known_of_careful {s : Pool.State ExportStore ExportWorker}
    (h : ((exports cfg).machine.under Careful).Reachable s) :
    s.store.Orderly ∧ ∀ p ∈ s.workers, p.Knows s.store := by
  refine Program.invariant_under (C := Careful) (I := ExportStore.Orderly)
    (J := fun st p => p.Knows st) ?_ ?_ ?_ ?_ ?_ h
  · rintro st ⟨-, hreq, -, -, hexported, -⟩
    refine ⟨fun r hr => ?_, by simp [hexported]⟩
    rw [hreq] at hr
    cases hr
  · intro st p _ hp k hk
    cases p with
    | processing | downloading | cleanup | documents => cases hk
    | _ => cases hp
  · intro st _ k hk
    cases hk
  · intro s i p e st q hc hs hknows hp hact
    have hblock := ExportWorker.act_block hact
    have hk := hknows p (List.mem_of_getElem? hp)
    refine ⟨hblock.orderly hs hk, hblock.knows hk, fun j r hji hr => ?_⟩
    exact hblock.knows_of_apart (hknows r (List.mem_of_getElem? hr)) fun k hrk =>
      apart_of_careful hc hp hr hji hrk
  · intro s x st _ hs hknows henv
    obtain ⟨hlogs, hreq⟩ := env_requests henv
    have hexported : ∀ x ∈ st.exported, x.2 < st.documents.documents.next := fun x hx =>
      (hs.exported x (hlogs.exported ▸ hx)).trans_le hlogs.next_le
    rcases hreq with hreq | ⟨a, -, -, hnone, hrows, -⟩
    · exact ⟨⟨hreq ▸ hs.inactive, hexported⟩, fun p hp k hk => hreq ▸ hknows p hp k hk⟩
    · refine ⟨⟨fun r hr hdocument => ?_, hexported⟩, fun p hp k hk => ?_⟩
      · rcases List.mem_append.mp (hrows ▸ hr) with hr | hr
        · exact hs.inactive r hr hdocument
        · obtain rfl := List.mem_singleton.mp hr
          exact absurd hnone hdocument
      · obtain ⟨r, hr, hrk⟩ := hknows p hp k hk
        exact ⟨r, hrows ▸ List.mem_append_left _ hr, hrk⟩

/-- A document that runs of the task have created and that is still there, with its request -/
def ExportStore.Kept (s : ExportStore) (x : ℕ × ℕ) : Prop := x ∈ s.exported ∧ s.HasDocument x.2

def ExportStore.Linked (s : ExportStore) (x : ℕ × ℕ) : Prop :=
  ∃ r ∈ s.requests.rows, r.pk = x.1 ∧ r.document = some x.2

theorem kept_of_unrecorded (hs : s.Orderly) (h : s.Unrecorded t) {x : ℕ × ℕ} (hx : t.Kept x) :
    s.Kept x :=
  ⟨h.exported ▸ hx.1, h.old _ (hs.exported x (h.exported ▸ hx.1)) hx.2⟩

/-- A save that writes no link over -/
theorem ExportStore.Linked.saved {x : ℕ × ℕ} (hx : s.Linked x) (hf : ∀ r, (f r).pk = r.pk)
    (h : s.requests.update k f = .ok t.requests)
    (hkeep : ∀ r ∈ s.requests.rows, r.pk = k → r.document ≠ none → (f r).document = r.document) :
    t.Linked x := by
  obtain ⟨r, hr, hpk, hdocument⟩ := hx
  obtain ⟨hsaved, hother⟩ := mem_of_update h hf hr
  by_cases hk : r.pk = k
  · refine ⟨f r, hsaved hk, (hf r).trans hpk, (hkeep r hr hk ?_).trans hdocument⟩
    simp [hdocument]
  · exact ⟨r, hother hk, hpk, hdocument⟩

/-- No block loses a link that there is. -/
theorem ExportBlock.linked (h : ExportBlock cfg e s t p q) (hp : p.Knows s) {x : ℕ × ℕ}
    (hx : s.Linked x) : t.Linked x := by
  cases h with
  | passed hreq | created hreq | removed hreq =>
    unfold ExportStore.Linked
    rw [hreq]
    exact hx
  | loaded _ ht => exact ht ▸ hx
  | saved hplain hupdate => exact hx.saved hplain.pk hupdate fun r _ _ _ => hplain.document r
  | completed hupdate =>
    refine hx.saved SavesAside.completed.pk hupdate fun r hr hk hdocument => ?_
    obtain ⟨a, ha, hak, hnone⟩ := hp _ rfl
    obtain rfl := Table.eq_of_pk hr ha (hk.trans hak.symm)
    exact absurd hnone hdocument
  | delivered _ _ _ _ hupdate =>
    exact hx.saved (f := .delivered) (fun _ => rfl) hupdate fun _ _ _ _ => rfl
  | sent ht =>
    subst ht
    exact hx

/-- A document that is not linked after a block is in the hands of the worker, or it was there
before and is in the hands of another one. -/
theorem ExportBlock.work (h : ExportBlock cfg e s t p q) (hs : s.Orderly) (hp : p.Knows s)
    (hsettles : p.Settles s e) {x : ℕ × ℕ} (hx : t.Kept x) :
    t.Linked x ∨ q.unlinked = some x ∨ s.Kept x ∧ ¬ p.unlinked = some x := by
  have hcontinues (hlogs : s.Unrecorded t) (hq : p.Continues s e q) :
      t.Linked x ∨ q.unlinked = some x ∨ s.Kept x ∧ ¬ p.unlinked = some x := by
    by_cases hheld : p.unlinked = some x
    · exact .inr (.inl ((hq.unlinked hsettles).trans hheld))
    · exact .inr (.inr ⟨kept_of_unrecorded hs hlogs hx, hheld⟩)
  cases h with
  | passed _ hlogs hq | saved _ _ hlogs hq => exact hcontinues hlogs hq
  | loaded _ ht =>
    subst ht
    exact .inr (.inr ⟨hx, nofun⟩)
  | @created req content saved category key d _ hd hages _ hexported =>
    obtain ⟨hmem, hrow⟩ := hx
    rw [hexported] at hmem
    rcases List.mem_append.mp hmem with hmem | hmem
    · exact .inr (.inr ⟨⟨hmem, hages.old _ (hs.exported x hmem) hrow⟩, nofun⟩)
    · obtain rfl := List.mem_singleton.mp hmem
      exact .inr (.inl rfl)
  | @completed req content saved document q hupdate hlogs =>
    by_cases hheld : (ExportWorker.completing req content saved document).unlinked = some x
    · obtain ⟨d, rfl⟩ : ∃ d, document = some d := by
        cases document with
        | none => cases hheld
        | some d => exact ⟨d, rfl⟩
      obtain rfl := Option.some.inj hheld
      obtain ⟨a, ha, hak, -⟩ := hp _ rfl
      have hsaved := (mem_of_update hupdate SavesAside.completed.pk ha).1 hak
      exact .inl ⟨_, hsaved, hak, rfl⟩
    · exact .inr (.inr ⟨kept_of_unrecorded hs hlogs hx, hheld⟩)
  | @removed req d r _ hlogs hgone =>
    refine .inr (.inr ⟨kept_of_unrecorded hs hlogs hx, fun hheld => ?_⟩)
    obtain rfl := Option.some.inj hheld
    exact hgone hsettles hx.2
  | delivered _ _ _ _ _ hages hexported =>
    obtain ⟨hmem, hrow⟩ := hx
    rw [hexported] at hmem
    exact .inr (.inr ⟨⟨hmem, hages.old _ (hs.exported x hmem) hrow⟩, nofun⟩)
  | sent ht =>
    subst ht
    exact .inr (.inr ⟨hx, nofun⟩)

theorem linked_or_held {s : Pool.State ExportStore ExportWorker}
    (h : ((exports cfg).machine.under Careful).Reachable s) {x : ℕ × ℕ} (hx : s.store.Kept x) :
    s.store.Linked x ∨ ∃ p ∈ s.workers, p.unlinked = some x := by
  refine Program.done_or_held (P := exports cfg) (C := Careful) ExportStore.Kept ExportStore.Linked
    (fun p x => p.unlinked = some x) ?_ ?_ ?_ ?_ h hx
  · rintro st x ⟨-, -, -, -, hexported, -⟩ ⟨hmem, -⟩
    rw [hexported] at hmem
    cases hmem
  · intro s i p e st q hs hc hp hact
    obtain ⟨horderly, hknows⟩ := known_of_careful hs
    have hblock := ExportWorker.act_block hact
    have hk := hknows p (List.mem_of_getElem? hp)
    exact ⟨fun x => hblock.linked hk, fun x => hblock.work horderly hk (hc.2 p hp)⟩
  · intro s x st hs henv y
    obtain ⟨hlogs, hreq⟩ := env_requests henv
    refine ⟨?_, fun hy => .inl (kept_of_unrecorded (known_of_careful hs).1 hlogs hy)⟩
    rintro ⟨r, hr, hlink⟩
    refine ⟨r, ?_, hlink⟩
    rcases hreq with hreq | ⟨a, -, -, -, hrows, -⟩
    · exact hreq ▸ hr
    · exact hrows ▸ List.mem_append_left _ hr
  · intro s i p x hc hp hheld
    cases (hc.2 p hp).symm.trans hheld

end Linked

/-! ## A clean-up -/

section Cleanup

variable (cfg : ExportSettings) {s : Pool.State ExportStore ExportWorker} {i : ℕ}

theorem expired_returns (st : ExportStore) (request : ℕ) :
    ∃ T, st.requests.update request (.withStatus .expired) = .ok T := by
  cases hget : st.requests.get request with
  | none => exact ⟨_, Numbered.update_of_none hget⟩
  | some r =>
    obtain ⟨hr, hpk⟩ := Numbered.get_eq_some.mp hget
    refine Numbered.update_returns_of_apart hget (fun _ hc => nomatch hc) fun a ha hak => ?_
    have hapart := Table.apart_of_ne ha hr fun heq => hak (heq ▸ hpk)
    refine ⟨hapart.1, fun index hindex hclash => ?_⟩
    obtain rfl | rfl | rfl : index = DataExportRequest.uniqueActiveExportPerCitizen ∨
        index = DataExportRequest.downloadTokenUnique ∨
          index = DataExportRequest.documentUnique := by
      simpa [DataExportRequest.schema] using hindex
    · exact hclash.1 hclash.2
    · exact hapart.2 _ hindex hclash
    · exact hapart.2 _ hindex hclash

variable {cfg} in
theorem run_act {p q : ExportWorker} {st : ExportStore} {e : ExportChoice}
    {ls : List (Pool.Label ExportWorker ExportChoice ExportEvent)} (hp : s.workers[i]? = some p)
    (h : p.act cfg s.store e = some (st, q)) :
    (exports cfg).machine.run s (.act i e :: ls) =
      (exports cfg).machine.run ⟨st, s.workers.set i q⟩ ls := by
  have hstep : (exports cfg).machine.step s (.act i e) = some ⟨st, s.workers.set i q⟩ := by
    simp only [Program.machine, Program.step, hp, Option.bind_some]
    rw [show (exports cfg).act s.store p e = some (st, q) from h]
    rfl
  rw [Machine.run_cons, hstep, Option.bind_some]

/-- One request of a clean-up that nothing disturbs -/
theorem cleanup_row {req : DataExportRequest} {document : Option Document}
    {batch : List (DataExportRequest × Option Document)} {startedAt : Instant}
    (hi : s.workers[i]? = some (.expiring ((req, document) :: batch) startedAt)) :
    ∃ t, (exports cfg).machine.run s (List.replicate 3 (.act i {})) = some t ∧
      t.workers[i]? = some (.expiring batch startedAt) ∧
      ∀ a ∈ s.store.requests.rows, ∃ r ∈ t.store.requests.rows, r.pk = a.pk ∧
        (r.status = .expired ∨ r = a ∧ req.pk ≠ a.pk) := by
  have hlt := (List.getElem?_eq_some_iff.mp hi).1
  obtain ⟨st₁, h₁, hreq⟩ : ∃ st₁,
      (ExportWorker.expiring ((req, document) :: batch) startedAt).act cfg s.store {} =
        some (st₁, .expired req batch startedAt) ∧ st₁.requests = s.store.requests :=
    ⟨_, rfl, (ExportWorker.dispose_row_aside document req.citizen).1⟩
  obtain ⟨T, hT⟩ := expired_returns st₁ req.pk
  have h₂ : (ExportWorker.expired req batch startedAt).act cfg st₁ {} =
      some ({ st₁ with requests := T }, .logging req batch startedAt) :=
    congrArg some (ExportWorker.orEnd_of_ok rfl (updateRow_ok.mpr ⟨T, hT, rfl⟩))
  obtain ⟨st₃, h₃, hT₃⟩ : ∃ st₃, (ExportWorker.logging req batch startedAt).act cfg
      { st₁ with requests := T } {} = some (st₃, .expiring batch startedAt) ∧ st₃.requests = T :=
    ⟨_, congrArg some (ExportWorker.orEnd_of_ok rfl rfl), rfl⟩
  refine ⟨_, (run_act hi h₁).trans ((run_act ?_ h₂).trans ((run_act ?_ h₃).trans rfl)), ?_, ?_⟩
  · simp [hlt]
  · simp [hlt]
  · simp [hlt]
  · intro a ha
    obtain ⟨hsaved, hother⟩ := mem_of_update (t := st₃) (hT.trans (congrArg _ hT₃.symm))
      (fun _ => rfl) (hreq ▸ ha)
    by_cases hpk : a.pk = req.pk
    · exact ⟨_, hsaved hpk, rfl, .inl rfl⟩
    · exact ⟨a, hother hpk, rfl, .inr ⟨rfl, Ne.symm hpk⟩⟩

/-- The requests of a clean-up that nothing disturbs, one by one -/
theorem cleanup_batch {batch : List (DataExportRequest × Option Document)} {startedAt : Instant}
    (hi : s.workers[i]? = some (.expiring batch startedAt)) :
    ∃ t, (exports cfg).machine.run s (List.replicate (3 * batch.length) (.act i {})) = some t ∧
      ∀ a ∈ s.store.requests.rows, ∃ r ∈ t.store.requests.rows, r.pk = a.pk ∧
        (r.status = .expired ∨ r = a ∧ ∀ row ∈ batch, row.1.pk ≠ a.pk) := by
  induction batch generalizing s with
  | nil => exact ⟨s, rfl, fun a ha => ⟨a, ha, rfl, .inr ⟨rfl, List.forall_mem_nil _⟩⟩⟩
  | cons row batch ih =>
    obtain ⟨req, document⟩ := row
    obtain ⟨u, hu, hui, hrow⟩ := cleanup_row cfg hi
    obtain ⟨t, ht, hrest⟩ := ih hui
    refine ⟨t, ?_, fun a ha => ?_⟩
    · rw [List.length_cons, Nat.mul_succ, Nat.add_comm, List.replicate_add, Machine.run_append, hu]
      exact ht
    · obtain ⟨b, hb, hbpk, hexpired⟩ := hrow a ha
      obtain ⟨r, hr, hrpk, hor⟩ := hrest b hb
      refine ⟨r, hr, hrpk.trans hbpk, ?_⟩
      rcases hor with hor | ⟨rfl, hnone⟩
      · exact .inl hor
      · rcases hexpired with hexpired | ⟨rfl, hne⟩
        · exact .inl hexpired
        · exact .inr ⟨rfl, List.forall_mem_cons.mpr ⟨hne, hnone⟩⟩

/-- A clean-up that nothing disturbs ends every ready request that is past its expiry. -/
theorem cleanup_expires (s : Pool.State ExportStore ExportWorker) :
    ∃ n t, (exports cfg).machine.run s
        (.spawn .cleanup :: List.replicate n (.act s.workers.length {})) = some t ∧
      ∀ a ∈ s.store.requests.rows, a.status = .ready → a.expiresAt.any (· ≤ s.store.now) = true →
        ∃ r ∈ t.store.requests.rows, r.pk = a.pk ∧ r.status = .expired := by
  have hspawn : (exports cfg).machine.step s (.spawn .cleanup) =
      some { s with workers := s.workers ++ [.cleanup] } := rfl
  have hcleanup :
      (s.workers ++ [ExportWorker.cleanup])[s.workers.length]? = some .cleanup := by simp
  have hexpiring : ((s.workers ++ [ExportWorker.cleanup]).set s.workers.length
      (.expiring s.store.pastExpiry s.store.now))[s.workers.length]? =
        some (.expiring s.store.pastExpiry s.store.now) := by simp
  obtain ⟨t, ht, hrows⟩ := cleanup_batch cfg (s := ⟨s.store, _⟩) hexpiring
  refine ⟨3 * s.store.pastExpiry.length + 1, t, ?_, fun a ha hready hpast => ?_⟩
  · rw [Machine.run_cons, hspawn, Option.bind_some, List.replicate_succ, run_act hcleanup rfl]
    exact ht
  · obtain ⟨r, hr, hpk, hexpired | ⟨-, hnone⟩⟩ := hrows a ha
    · exact ⟨r, hr, hpk, hexpired⟩
    · refine absurd rfl (hnone (a, a.document.bind s.store.documents.documents.get) ?_)
      exact List.mem_map.mpr ⟨a, List.mem_filter.mpr ⟨ha, decide_eq_true ⟨hready, hpast⟩⟩, rfl⟩

end Cleanup

/-! ## The life of an export -/

/-- What holds of the deliveries in any run -/
structure ExportStore.DeliveredOnce (s : ExportStore) : Prop where
  answered : ∀ request, s.served.count request ≤ 1
  delivered : (s.deliveries.map (·.request.pk)).Nodup
  inTime : ∀ d ∈ s.deliveries, d.InTime

/-- Every export document that is there is linked to exactly one request, which is ready, delivered,
expired or failed. -/
def ExportStore.AllLinked (s : ExportStore) : Prop :=
  ∀ x, s.Kept x → ∃! r, r ∈ s.requests.rows ∧ r.document = some x.2 ∧ r.isActive = false

/-- In any run each request is downloaded at most once, before its expiry, and a clean-up that
nothing disturbs ends the requests that are past it. In a careful run, no document is left without a
request when no run of the task is under way. -/
theorem exports_delivered_once (cfg : ExportSettings) :
    (∀ s, (exports cfg).machine.Reachable s → s.store.DeliveredOnce ∧
      ∃ n t, (exports cfg).machine.run s
          (.spawn .cleanup :: List.replicate n (.act s.workers.length {})) = some t ∧
        ∀ a ∈ s.store.requests.rows, a.status = .ready →
          a.expiresAt.any (· ≤ s.store.now) = true →
            ∃ r ∈ t.store.requests.rows, r.pk = a.pk ∧ r.status = .expired) ∧
    ∀ s, ((exports cfg).machine.under Careful).Reachable s →
      (∀ p ∈ s.workers, p.exporting = none) → s.store.AllLinked := by
  constructor
  · intro s hs
    have hsound := sound_of_reachable hs
    refine ⟨⟨fun request => ?_, hsound.once, hsound.inTime⟩, cleanup_expires cfg s⟩
    exact (served_le hs request).trans (List.nodup_iff_count_le_one.mp hsound.once request)
  · intro s hs hidle x hx
    obtain ⟨horderly, -⟩ := known_of_careful hs
    rcases linked_or_held hs hx with ⟨r, hr, -, hdocument⟩ | ⟨p, hp, hheld⟩
    · refine ⟨r, ⟨hr, hdocument, horderly.inactive r hr (by simp [hdocument])⟩, ?_⟩
      rintro a ⟨ha, hadocument, -⟩
      refine Table.eq_of_clash (i := DataExportRequest.documentUnique) (by simp
        [DataExportRequest.schema]) ha hr ⟨?_, hadocument.trans hdocument.symm⟩
      simp [DataExportRequest.documentUnique, hadocument]
    · cases (hidle p hp).symm.trans (exporting_of_unlinked hheld)

private def portal : ExportSettings where
  documents := Documents.plainSettings

private def portalStore : ExportStore where
  documents := {
    categories := [{ pk := 1, slug := "pipeda-data-export", isTransitory := true }] }

private theorem portal_init : (exports portal).machine.Init ⟨portalStore, []⟩ :=
  ⟨⟨⟨rfl, rfl, rfl, rfl, rfl, rfl⟩, rfl, rfl, rfl, rfl, rfl, rfl⟩, rfl⟩

/-- A request, the task from its first block to its last, and a download -/
private def collected : List (Pool.Label ExportWorker ExportChoice ExportEvent) :=
  .env (.request 7 100) :: .spawn (.processing 1) ::
    List.replicate 12 (.act 0 { payload := [123, 125], file := 5 }) ++
    .spawn (.downloading 100 7) :: List.replicate 3 (.act 1 {})

private def taken : Pool.State ExportStore ExportWorker :=
  ((exports portal).machine.under Careful).final ⟨portalStore, []⟩ collected

private theorem taken_reachable : ((exports portal).machine.under Careful).Reachable taken :=
  .final (M := (exports portal).machine.under Careful) portal_init _

theorem collected_delivered_once : taken.store.served = [1] ∧ taken.store.DeliveredOnce ∧
    taken.store.exported = [(1, 1)] ∧ taken.store.AllLinked :=
  ⟨by decide +kernel, ((exports_delivered_once portal).1 _ taken_reachable.of_under).1,
    by decide +kernel, (exports_delivered_once portal).2 _ taken_reachable (by decide +kernel)⟩

/-- A document that has been delivered keeps its object until it is purged, and its request is no
longer ready. -/
theorem delivered_still_stored : ((exports portal).machine.under Careful).Reachable taken ∧
    (∀ p ∈ taken.workers, p.exporting = none) ∧
    ∃ d ∈ taken.store.documents.documents.rows, (1, d.pk) ∈ taken.store.exported ∧
      d.legalHold = false ∧ (d.storageKey.bind taken.store.documents.objects).isSome = true ∧
      ∀ r ∈ taken.store.requests.rows, r.document = some d.pk → r.status ≠ .ready :=
  ⟨taken_reachable, by decide +kernel, by decide +kernel⟩

end Civicos.Consent
