import Civicos.Documents.Cleanup

/-!
# The verdict of the scanner

The scanner reads an object, and the task copies whatever is under the same key when it has the
verdict. Until then the client may write the key again, and the clean-up may destroy it.
-/
namespace Civicos.Documents

open Library Library.Transaction

variable {cfg : Settings} {e : Choice} {s t : Store} {d a : Document} {p q : Worker} {i : ℕ}
  {k : Key}

/-! ## What is not scanned again -/

/-- The document has been scanned or disposed of, or has gone. -/
def Store.Done (s : Store) (i : ℕ) : Prop :=
  s.Settled i ∧ ∀ d ∈ s.documents.rows, d.pk = i → d.scanStatus ≠ .scanning

theorem moves_scanning {x : ScanStatus} (h : Moves x .scanning) : x = .pendingUpload := by
  cases h
  rfl

/-- A document that is scanned now and was not pending before was scanned before. -/
theorem Change.scanning (h : Change cfg e s p t) (hsound : s.Sound) (hs : s.Settled i)
    (ha : a ∈ t.documents.rows) (hpk : a.pk = i) (hscanning : a.scanStatus = .scanning) :
    ∃ d ∈ s.documents.rows, d.pk = i ∧ d.scanStatus = .scanning ∧ a.storageKey = d.storageKey := by
  rcases h.origin ha with ⟨d, hd, hrow⟩ | hfresh
  · have hdpk : d.pk = i := hrow.pk_eq.symm.trans hpk
    refine ⟨d, hd, hdpk, ?_⟩
    rcases h.moves hsound hd ha hrow.pk_eq with hsame | hmove
    · refine ⟨hsame.symm.trans hscanning, ?_⟩
      cases hrow with
      | kept | flagged => rfl
      | touched touch => cases touch <;> first | rfl | cases hscanning
    · exact absurd (moves_scanning (hscanning ▸ hmove)) (hs.2 d hd hdpk)
  · exact absurd (hfresh.pk_eq.symm.trans hpk) (Nat.ne_of_gt hs.1)

theorem Change.done (h : Change cfg e s p t) (hsound : s.Sound) (hs : s.Done i) : t.Done i := by
  refine ⟨h.settled hsound hs.1, fun a ha hpk hscanning => ?_⟩
  obtain ⟨d, hd, hdpk, hstatus, -⟩ := h.scanning hsound hs.1 ha hpk hscanning
  exact hs.2 d hd hdpk hstatus

theorem env_done {x : Event} (h : (documents cfg).env s x = some t) (hs : s.Done i) :
    t.Done i := by
  refine ⟨env_settled h hs.1, fun a ha hpk => ?_⟩
  rcases (env_rows h).2.1 a ha with ha | ⟨document, file, rfl⟩
  · exact hs.2 a ha hpk
  · exact absurd hpk (Nat.ne_of_gt hs.1.1)

/-! ## What the workers know -/

/-- The key of a document that is being scanned. -/
def Store.KeyOf (s : Store) (i : ℕ) (key : Option Key) : Prop :=
  s.Settled i ∧
    ∀ d ∈ s.documents.rows, d.pk = i → d.scanStatus = .scanning → d.storageKey = key

/-- What the scanner has found clean is still there, as long as the document is being scanned. -/
def Store.Clean (s : Store) (i : ℕ) (c : Content) : Prop :=
  s.Settled i ∧ ∀ d ∈ s.documents.rows, d.pk = i → d.scanStatus = .scanning →
    ∃ k, d.storageKey = some k ∧ s.objects k = some c

def Worker.Trusts (s : Store) : Worker → Prop
  | .claimed document key => s.KeyOf document key
  | .scanned document content result => result = "OK" → ∃ c, content = some c ∧ s.Clean document c
  | .sweeping key => ∀ k, key = some k → s.Done k.document
  | .clearing _ key _ => ∀ k, key = some k → s.Done k.document
  | _ => True

/-- The scanner has found the document clean, and the verdict is not recorded yet. -/
def Worker.judged : Worker → ℕ → Bool
  | .scanned document _ result, i => document = i ∧ result = "OK"
  | _, _ => false

def Worker.purgedKey : Worker → Option Key
  | .cleaning _ (k :: _) _ _ => some k
  | _ => none

/-- No document is being scanned under this key whose verdict is already known. -/
def Unjudged (s : Pool.State Store Worker) (k : Key) : Prop :=
  ∀ d ∈ s.store.documents.rows, d.storageKey = some k → d.scanStatus = .scanning →
    ∀ r ∈ s.workers, r.judged d.pk = false

instance (s : Pool.State Store Worker) (k : Key) : Decidable (Unjudged s k) := by
  unfold Unjudged
  infer_instance

/-- The object of a document that has been found clean is left alone until it is copied: the client
does not write anything else there, and the clean-up does not destroy it. -/
def Steady (s : Pool.State Store Worker) : Pool.Label Worker Choice Event → Prop
  | .act i _ => ∀ p ∈ s.workers[i]?, ∀ k ∈ p.purgedKey, Unjudged s k
  | .env (.overwrite k content) => s.store.objects k = some content ∨ Unjudged s k
  | _ => True

instance (s : Pool.State Store Worker) :
    (l : Pool.Label Worker Choice Event) → Decidable (Steady s l)
  | .act i _ => inferInstanceAs (Decidable (∀ p ∈ s.workers[i]?, ∀ k ∈ p.purgedKey, Unjudged s k))
  | .env (.overwrite k content) =>
    inferInstanceAs (Decidable (s.store.objects k = some content ∨ Unjudged s k))
  | .spawn _ | .die _ | .env (.pass _) | .env (.generate ..) | .env (.attachments _) =>
    inferInstanceAs (Decidable True)

/-! ## What the workers know stays true -/

theorem Change.keyOf {key : Option Key} (h : Change cfg e s p t) (hsound : s.Sound)
    (hs : s.KeyOf i key) : t.KeyOf i key := by
  refine ⟨h.settled hsound hs.1, fun a ha hpk hscanning => ?_⟩
  obtain ⟨d, hd, hdpk, hstatus, hkey⟩ := h.scanning hsound hs.1 ha hpk hscanning
  exact hkey.trans (hs.2 d hd hdpk hstatus)

theorem Change.clean {c : Content} (h : Change cfg e s p t) (hsound : s.Sound) (hs : s.Clean i c)
    (htakes : ∀ d ∈ s.documents.rows, d.pk = i → d.scanStatus = .scanning → ∀ k,
      d.storageKey = some k → p.takes ≠ some k) : t.Clean i c := by
  refine ⟨h.settled hsound hs.1, fun a ha hpk hscanning => ?_⟩
  obtain ⟨d, hd, hdpk, hstatus, hsame⟩ := h.scanning hsound hs.1 ha hpk hscanning
  obtain ⟨k, hkey, hobject⟩ := hs.2 d hd hdpk hstatus
  have hkept := h.objects_eq hsound hd hkey (htakes d hd hdpk hstatus k hkey)
  exact ⟨k, hsame.trans hkey, hkept.trans hobject⟩

/-- Another worker's block. -/
theorem Worker.Trusts.stable (h : q.Trusts s) (hchange : Change cfg e s p t) (hsound : s.Sound)
    (htakes : ∀ d ∈ s.documents.rows, q.judged d.pk = true → d.scanStatus = .scanning → ∀ k,
      d.storageKey = some k → p.takes ≠ some k) : q.Trusts t := by
  cases q with
  | claimed => exact hchange.keyOf hsound h
  | scanned document content result =>
    intro hresult
    obtain ⟨c, hcontent, hclean⟩ := h hresult
    refine ⟨c, hcontent, hchange.clean hsound hclean fun d hd hpk => htakes d hd ?_⟩
    exact decide_eq_true ⟨hpk.symm, hresult⟩
  | sweeping | clearing => exact fun k hk => hchange.done hsound (h k hk)
  | _ => trivial

/-- The keys that other workers take away belong to documents that have been scanned. -/
theorem takes_ne (hsound : s.Sound) (hp : p.Trusts s) (hd : d ∈ s.documents.rows)
    (hscanning : d.scanStatus = .scanning) (hkey : d.storageKey = some k)
    (hpurged : p.purgedKey ≠ some k) : p.takes ≠ some k := by
  have hnot (h : s.Done k.document) : False :=
    h.2 d hd ((hsound d hd).own k hkey).symm hscanning
  intro htakes
  cases p with
  | clearing | sweeping => exact hnot (hp k htakes)
  | cleaning stale keys chunk rest =>
    cases keys with
    | nil => cases htakes
    | cons => exact hpurged htakes
  | _ => cases htakes

theorem Next.trusts (h : Next cfg e s t p q) (hchange : Change cfg e s p t) (hsound : s.Sound)
    (hp : p.Trusts s) : q.Trusts t := by
  cases h with
  | @captured _ d job hd hstatus =>
    intro k hkey
    rw [(hsound d hd).own k hkey]
    refine hchange.done hsound ⟨⟨s.documents.used d hd, fun a ha hpk => ?_⟩, fun a ha hpk => ?_⟩
    all_goals
      rw [Table.eq_of_pk ha hd hpk, hstatus]
      intro h
      cases h
  | claimed hd hstatus =>
    refine hchange.keyOf hsound ⟨⟨s.documents.used _ hd, fun a ha hpk => ?_⟩,
      fun a ha hpk _ => ?_⟩
    · rw [Table.eq_of_pk ha hd hpk, hstatus]
      intro h
      cases h
    · rw [Table.eq_of_pk ha hd hpk]
  | unread => exact fun hresult => absurd hresult (by decide)
  | @scanned document k content result hobject hs =>
    subst hs
    refine fun _ => ⟨content, rfl, hp.1, fun d hd hpk hstatus => ?_⟩
    exact ⟨k, hp.2 d hd hpk hstatus, hobject⟩
  | @decided d content result k hd hkey hverdict =>
    intro k' hk'
    obtain rfl := Option.some.inj hk'
    rw [(hsound d hd).own k hkey]
    refine ⟨⟨lt_of_lt_of_le (s.documents.used d hd) hchange.next_le, fun a ha hpk => ?_⟩,
      fun a ha hpk => ?_⟩
    all_goals
      rcases hverdict a ha hpk with hstatus | hstatus
      all_goals
        rw [hstatus]
        intro h
        cases h
  | cleanup | deleted =>
    unfold Worker.nextStale
    split <;> trivial
  | _ => trivial

theorem env_trusts {s : Pool.State Store Worker} {x : Event} {st : Store} (hsound : s.store.Sound)
    (hc : Steady s (.env x)) (h : (documents cfg).env s.store x = some st) (hr : q ∈ s.workers)
    (hq : q.Trusts s.store) : q.Trusts st := by
  have hold {i : ℕ} (hi : i < s.store.documents.next) {a : Document}
      (ha : a ∈ st.documents.rows) (hpk : a.pk = i) : a ∈ s.store.documents.rows := by
    rcases (env_rows h).2.1 a ha with ha | ⟨document, file, rfl⟩
    · exact ha
    · exact absurd hpk (Nat.ne_of_gt hi)
  cases q with
  | claimed document key =>
    exact ⟨env_settled h hq.1, fun a ha hpk => hq.2 a (hold hq.1.1 ha hpk) hpk⟩
  | scanned document content result =>
    intro hresult
    obtain ⟨c, hcontent, hclean⟩ := hq hresult
    refine ⟨c, hcontent, env_settled h hclean.1, fun a ha hpk hscanning => ?_⟩
    have ha := hold hclean.1.1 ha hpk
    obtain ⟨k, hkey, hobject⟩ := hclean.2 a ha hpk hscanning
    refine ⟨k, hkey, ?_⟩
    obtain ⟨-, ⟨-, hobjects⟩ | ⟨k', content', rfl, -, hobjects⟩ | ⟨_, file, _, -, -, hobjects⟩⟩ :=
      env_change h
    · exact (congrFun hobjects k).trans hobject
    · by_cases hk : k = k'
      · subst hk
        rw [hobjects, Function.update_self]
        rcases hc with hsame | hfree
        · exact hsame.symm.trans hobject
        · have hjudged : (Worker.scanned document content result).judged a.pk = true :=
            decide_eq_true ⟨hpk.symm, hresult⟩
          rw [hfree a ha hkey hscanning _ hr] at hjudged
          cases hjudged
      · rw [hobjects, Function.update_of_ne hk]
        exact hobject
    · rw [hobjects, Function.update_of_ne]
      · exact hobject
      · rintro rfl
        exact absurd ((hsound a ha).own _ hkey) (Nat.ne_of_gt (s.store.documents.used a ha))
  | sweeping | clearing => exact fun k hk => env_done h (hq k hk)
  | _ => trivial

theorem trusts_of_reachable {s : Pool.State Store Worker}
    (h : ((documents cfg).machine.under Steady).Reachable s) :
    s.store.Sound ∧ ∀ p ∈ s.workers, p.Trusts s.store := by
  refine Program.invariant_under (I := Store.Sound) (J := fun s p => p.Trusts s) ?_ ?_ ?_ ?_ ?_ h
  · exact fun _ => sound_init
  · intro st p _ hentry
    cases p <;> trivial
  · intro st _
    trivial
  · intro s i p e st q hc hI hJ hp hact
    have hchange := (act_change hact).2
    have hmem := List.mem_of_getElem? hp
    refine ⟨hchange.sound hI, (act_next hact).trusts hchange hI (hJ p hmem), fun j r _ hr => ?_⟩
    have hr := List.mem_of_getElem? hr
    refine (hJ r hr).stable hchange hI fun d hd hjudged hscanning k hkey => ?_
    refine takes_ne hI (hJ p hmem) hd hscanning hkey fun hpurged => ?_
    rw [hc p hp k hpurged d hd hkey hscanning r hr] at hjudged
    cases hjudged
  · intro s x st hc hI hJ henv
    exact ⟨env_sound hI henv, fun r hr => env_trusts hI hc henv hr (hJ r hr)⟩

/-! ## What becomes active -/

/-- The promotion of a document that the scanner has found clean. -/
theorem Touch.activates {f : Document → DocumentState} {es : List AuditEntry}
    {objects : Key → Option Content} (h : Touch cfg e s p d f es objects)
    (hd : d ∈ s.documents.rows) (hsound : s.Sound) (hp : p.Trusts s)
    (hbefore : d.scanStatus ≠ .active) (hactive : (d.withState f).scanStatus = .active)
    (hresult : (d.withState f).scanEngineResult = "OK") :
    ∃ c k, p = .scanned d.pk (some c) "OK" ∧ (d.withState f).storageKey = some k ∧
      objects k = some c := by
  cases h with
  | promoted hstatus hkey =>
    obtain ⟨c, rfl, hclean⟩ := hp rfl
    obtain ⟨k, hkey', hobject⟩ := hclean.2 d hd rfl hstatus
    obtain rfl := Option.some.inj (hkey.symm.trans hkey')
    refine ⟨c, _, rfl, rfl, ?_⟩
    exact (Function.update_self ..).trans hobject
  | activated hstatus hnone =>
    -- There is something to promote.
    obtain ⟨c, rfl, hclean⟩ := hp rfl
    obtain ⟨k, hkey, hobject⟩ := hclean.2 d hd rfl hstatus
    obtain ⟨k', hkey', harea⟩ := (hsound d hd).fresh (.inr hstatus)
    obtain rfl := Option.some.inj (hkey.symm.trans hkey')
    rw [hkey, Store.promotable] at hnone
    simp [harea, hobject] at hnone
  | bypassed =>
    have hne : ("DEV_BYPASS" : String) ≠ "OK" := by decide
    exact absurd hresult hne
  | held | released => exact absurd hactive hbefore
  | _ => cases hactive

/-- In every run in which the object of a document that has been found clean is left alone, what
becomes active through the scanner is there and is what the scanner has seen. -/
theorem active_is_clean {s t : Pool.State Store Worker} {l : Pool.Label Worker Choice Event}
    (h : ((documents cfg).machine.under Steady).Reachable s)
    (hstep : (documents cfg).machine.step s l = some t) (hd : d ∈ s.store.documents.rows)
    (ha : a ∈ t.store.documents.rows) (hpk : a.pk = d.pk) (hbefore : d.scanStatus ≠ .active)
    (hactive : a.scanStatus = .active) (hresult : a.scanEngineResult = "OK") :
    ∃ i e c k, l = .act i e ∧ s.workers[i]? = some (.scanned d.pk (some c) "OK") ∧
      a.storageKey = some k ∧ t.store.objects k = some c := by
  obtain ⟨hsound, htrusts⟩ := trusts_of_reachable h
  have hsame (h : a = d) : False := hbefore (h ▸ hactive)
  obtain ⟨p, -, -, rfl⟩ | ⟨i, e, p, st, q, rfl, hp, hact, rfl⟩ | ⟨i, -, rfl⟩ |
    ⟨x, st, -, henv, rfl⟩ := Program.step_cases hstep
  · exact (hsame (Table.eq_of_pk ha hd hpk)).elim
  · rcases (act_change hact).2.origin ha with ⟨b, hb, hrow⟩ | hfresh
    · obtain rfl : b = d := Table.eq_of_pk hb hd (hrow.pk_eq.symm.trans hpk)
      cases hrow with
      | kept | flagged => exact absurd hactive hbefore
      | touched touch hobjects =>
        obtain ⟨c, k, rfl, hkey, hobject⟩ := touch.activates hb hsound
          (htrusts p (List.mem_of_getElem? hp)) hbefore hactive hresult
        exact ⟨i, e, c, k, rfl, hp, hkey, (congrFun hobjects k).trans hobject⟩
    · exact absurd (hfresh.pk_eq.symm.trans hpk) (Nat.ne_of_gt (s.store.documents.used d hd))
  · exact (hsame (Table.eq_of_pk ha hd hpk)).elim
  · exact (hsame (env_row henv hd ha hpk)).elim

/-- The upload of the example, with the verdict of the scanner in hand. -/
def judgedUpload : Pool.State Store Worker :=
  ((documents plainSettings).machine.under Steady).final ⟨emptyStore, []⟩ scannedUpload.dropLast

def promotedUpload : Pool.State Store Worker :=
  (documents plainSettings).machine.final judgedUpload [.act 2 {}]

theorem judgedUpload_clean : ∃ a ∈ promotedUpload.store.documents.rows, ∃ i e c k,
    (.act 2 {} : Pool.Label Worker Choice Event) = .act i e ∧
    judgedUpload.workers[i]? = some (.scanned 1 (some c) "OK") ∧
    a.storageKey = some k ∧ promotedUpload.store.objects k = some c := by
  have hreach := Machine.Reachable.final (M := (documents plainSettings).machine.under Steady)
    (s := ⟨emptyStore, []⟩) ⟨init_emptyStore plainSettings, rfl⟩ scannedUpload.dropLast
  have hbefore : judgedUpload.store.documents.rows.any (fun d => d.pk = 1 ∧
      d.scanStatus = .scanning) = true := by decide +kernel
  have hafter : promotedUpload.store.documents.rows.any (fun a => a.pk = 1 ∧
      a.scanStatus = .active ∧ a.scanEngineResult = "OK") = true := by decide +kernel
  obtain ⟨d, hd, hprop⟩ := List.any_eq_true.mp hbefore
  obtain ⟨hdpk, hscanning⟩ := of_decide_eq_true hprop
  obtain ⟨a, ha, hprop⟩ := List.any_eq_true.mp hafter
  obtain ⟨hapk, hactive, hresult⟩ := of_decide_eq_true hprop
  have hclean := active_is_clean hreach (Machine.step_final (by decide +kernel)) hd ha
    (hapk.trans hdpk.symm) (by rw [hscanning]; decide) hactive hresult
  rw [hdpk] at hclean
  exact ⟨a, ha, hclean⟩

/-- The client writes its key once more before the verdict is recorded. -/
def swappedUpload : Pool.State Store Worker :=
  (documents plainSettings).machine.final ⟨emptyStore, []⟩
    (scannedUpload.dropLast ++ [.env (.overwrite ⟨.quarantine, 1, 5⟩ [66])])

theorem swappedUpload_fails : ¬ ∀ (s t : Pool.State Store Worker)
    (l : Pool.Label Worker Choice Event), (documents plainSettings).machine.Reachable s →
    (documents plainSettings).machine.step s l = some t → ∀ d ∈ s.store.documents.rows,
    ∀ a ∈ t.store.documents.rows, a.pk = d.pk → d.scanStatus ≠ .active → a.scanStatus = .active →
    a.scanEngineResult = "OK" → ∃ i e c k, l = .act i e ∧
      s.workers[i]? = some (.scanned d.pk (some c) "OK") ∧ a.storageKey = some k ∧
      t.store.objects k = some c := by
  intro h
  have hreach : (documents plainSettings).machine.Reachable swappedUpload :=
    Machine.Reachable.final (M := (documents plainSettings).machine)
      (s := ⟨emptyStore, []⟩) ⟨init_emptyStore plainSettings, rfl⟩ _
  have hbefore : swappedUpload.store.documents.rows.any (fun d => d.pk = 1 ∧
      d.scanStatus = .scanning) = true := by decide +kernel
  have hafter : ((documents plainSettings).machine.final swappedUpload
      [.act 2 {}]).store.documents.rows.any (fun a => a.pk = 1 ∧ a.scanStatus = .active ∧
        a.scanEngineResult = "OK" ∧ a.storageKey = some ⟨.active, 1, 5⟩) = true := by
    decide +kernel
  obtain ⟨d, hd, hprop⟩ := List.any_eq_true.mp hbefore
  obtain ⟨hdpk, hscanning⟩ := of_decide_eq_true hprop
  obtain ⟨a, ha, hprop⟩ := List.any_eq_true.mp hafter
  obtain ⟨hapk, hactive, hresult, hkey⟩ := of_decide_eq_true hprop
  obtain ⟨i, e, c, k, hl, hworker, hkey', hobject⟩ := h _ _ (.act 2 {}) hreach
    (Machine.step_final (by decide +kernel)) d hd a ha (hapk.trans hdpk.symm)
    (by rw [hscanning]; decide) hactive hresult
  obtain ⟨rfl, rfl⟩ := Pool.Label.act.inj hl
  have hseen : swappedUpload.workers[2]? = some (.scanned 1 (some [80]) "OK") := by decide +kernel
  rw [hseen, hdpk] at hworker
  obtain ⟨-, hc, -⟩ := Worker.scanned.inj (Option.some.inj hworker)
  obtain rfl := Option.some.inj (hkey.symm.trans hkey')
  have hstored : ((documents plainSettings).machine.final swappedUpload
      [.act 2 {}]).store.objects ⟨.active, 1, 5⟩ = some [66] := by decide +kernel
  rw [hstored, ← Option.some.inj hc] at hobject
  cases hobject

end Civicos.Documents
