import Civicos.Documents.Keys
import Civicos.Documents.Workers

/-!
# Download tokens

A redemption holds the lock of its token from the check to the commit, so that a token is redeemed
once. It holds no lock of the document: what it serves was active when it was read, and is active at
the commit only if nobody has disposed of it in between.
-/
namespace Civicos.Documents

open Library Library.Transaction

variable {cfg : Settings} {e : Choice} {s t : Store} {d : Document} {p q : Worker}
  {a b : AccessToken}

/-! ## What a block does to the tokens -/

inductive TokenStep (s t : Store) (p : Worker) : Prop
  | kept (htokens : t.tokens = s.tokens) (hredemptions : t.redemptions = s.redemptions)
  | issued {build : ℕ → AccessToken} (hbuild : ∀ pk, (build pk).pk = pk)
      (htokens : s.tokens.insert build = .ok t.tokens)
      (hredemptions : t.redemptions = s.redemptions)
  | dropped {stays : AccessToken → Bool} (htokens : t.tokens = s.tokens.keep stays)
      (hredemptions : t.redemptions = s.redemptions)
  | redeemed {a : AccessToken} {user : ℕ} {usedAt : Instant} {d : Document}
      (hp : p = .redemption a.pk user usedAt d) (ha : a ∈ s.tokens.rows) (hused : a.usedAt = none)
      (hdocs : t.documents = s.documents)
      (htokens : t.tokens = s.tokens.rewrite (·.pk = a.pk) (.used usedAt)
        (AccessToken.preserves usedAt))
      (hredemptions : t.redemptions = s.redemptions ++
        [{ token := a, user, usedAt, document := s.documents.get a.document }])

theorem deleteDocuments_tokens {gone : Document → Bool} :
    TokenStep s (s.drop gone) p := .dropped rfl rfl

theorem commit_tokens {x : Tx Unit} (hx : ∀ u t, x s = .ok (u, t) → TokenStep s t p) :
    TokenStep s (commit x s).2 p := by
  cases hrun : x s with
  | error =>
    rw [commit_of_error hrun]
    exact .kept rfl rfl
  | ok r =>
    rw [commit_of_ok (a := r.1) (t := r.2) hrun]
    exact hx r.1 r.2 hrun

theorem act_tokens (h : p.act cfg s e = some (t, q)) : TokenStep s t p := by
  cases hhandles : p.handlesTokens with
  | false =>
    obtain ⟨htokens, hredemptions⟩ := (act_change h).1.2 hhandles
    exact .kept htokens hredemptions
  | true =>
    cases p with
    | calling op =>
      simp only [Worker.act] at h
      split at h <;> cases h
      next hrun =>
        cases op with
        | issueAccessToken document user =>
          obtain ⟨d, -, -, T, hT, rfl⟩ := issueAccessToken_ok (commit_ok hrun)
          exact .issued (fun _ => rfl) (by simpa [Store.tokenTable] using hT)
            (by simp [Store.tokenTable])
        | purgeExpiredTokens =>
          obtain ⟨audited, count, rfl⟩ := purgeExpiredTokens_ok (commit_ok hrun)
          exact .dropped (by simp [Store.tokenTable]; rfl) (by simp [Store.tokenTable])
        | _ => cases hhandles
      next hrun => exact commit_error hrun ▸ .kept rfl rfl
    | withdrawing new previous =>
      cases h
      refine commit_tokens fun u t hrun => ?_
      cases previous with
      | none =>
        obtain ⟨-, rfl⟩ := deleteDocuments_ok hrun
        exact deleteDocuments_tokens
      | some previous =>
        have hrun := saveDocument_bind.mp hrun
        obtain ⟨-, rfl⟩ := deleteDocuments_ok hrun
        exact .dropped rfl rfl
    | collected stale pks rest =>
      simp only [Worker.act] at h
      split at h <;> cases h
      next hrun =>
        obtain ⟨-, rfl⟩ := deleteDocuments_ok (commit_ok hrun)
        exact deleteDocuments_tokens
      next hrun => exact commit_error hrun ▸ .kept rfl rfl
    | redemption token user usedAt document =>
      simp only [Worker.act] at h
      split at h <;> cases h
      next hrun =>
        obtain ⟨a, ha, rfl, hused, rfl⟩ := commitRedemption_ok (commit_ok hrun)
        exact .redeemed rfl ha hused (by simp [Store.tokenTable]) (by simp [Store.tokenTable]) rfl
    | _ => cases hhandles

theorem mem_redeem {usedAt : Instant} (ha : a ∈ s.tokens.rows) :
    b ∈ (s.tokens.rewrite (·.pk = a.pk) (.used usedAt) (AccessToken.preserves usedAt)).rows ↔
      (b ∈ s.tokens.rows ∧ b.pk ≠ a.pk) ∨ b = a.used usedAt :=
  Numbered.mem_rewrite_row (AccessToken.preserves usedAt) ha

/-- A token later on, or the same. -/
structure AccessToken.Follows (a b : AccessToken) : Prop where
  pk : b.pk = a.pk
  document : b.document = a.document
  issuedTo : b.issuedTo = a.issuedTo
  expiresAt : b.expiresAt = a.expiresAt
  used : a.usedAt.isSome = true → b.usedAt.isSome = true

theorem AccessToken.Follows.refl (a : AccessToken) : a.Follows a := ⟨rfl, rfl, rfl, rfl, id⟩

theorem TokenStep.row (h : TokenStep s t p) {i : ℕ} (hi : i < s.tokens.next)
    (hb : b ∈ t.tokens.rows) (hpk : b.pk = i) : ∃ a ∈ s.tokens.rows, a.pk = i ∧ a.Follows b := by
  cases h with
  | kept htokens => exact ⟨b, htokens ▸ hb, hpk, .refl b⟩
  | issued hbuild htokens =>
    rw [(Numbered.insert_ok htokens (hbuild _)).1, List.mem_append, List.mem_singleton] at hb
    rcases hb with hb | rfl
    · exact ⟨b, hb, hpk, .refl b⟩
    · exact absurd (hpk.symm.trans (hbuild _)) (Nat.ne_of_lt hi)
  | dropped htokens =>
    rw [htokens, Numbered.rows_keep] at hb
    exact ⟨b, (List.mem_filter.mp hb).1, hpk, .refl b⟩
  | redeemed _ ha _ _ htokens =>
    rw [htokens, mem_redeem ha] at hb
    rcases hb with ⟨hb, -⟩ | rfl
    · exact ⟨b, hb, hpk, .refl b⟩
    · exact ⟨_, ha, hpk, rfl, rfl, rfl, rfl, fun _ => rfl⟩

theorem TokenStep.next_le (h : TokenStep s t p) : s.tokens.next ≤ t.tokens.next := by
  cases h with
  | kept htokens | dropped htokens | redeemed _ _ _ _ htokens =>
    exact (congrArg Numbered.next htokens).ge
  | issued hbuild htokens =>
    rw [(Numbered.insert_ok htokens (hbuild _)).2.1]
    exact Nat.le_succ _

/-! ## What a redemption knows -/

def Store.Available (s : Store) (i : ℕ) : Prop :=
  ∃ d ∈ s.documents.rows, d.pk = i ∧ d.available = true

/-- A redemption has checked its token, and its document has stayed available. -/
def Worker.Holds (s : Store) : Worker → Prop
  | .redemption token user usedAt document =>
    (token < s.tokens.next ∧ ∀ a ∈ s.tokens.rows, a.pk = token →
      a.issuedTo = user ∧ usedAt < a.expiresAt ∧ a.document = document.pk) ∧
    s.Available document.pk
  | _ => True

/-- A block that may end the availability of a document: it disposes of it, or takes its row
away. -/
def Worker.disposes (s : Store) (p : Worker) (i : ℕ) : Bool :=
  match p with
  | .calling (.softDelete document _ _) | .calling (.markPurposeFulfilled document _)
  | .disposing (document :: _) _ => document.pk = i ∧
    s.documents.rows.any fun d => d.pk = i ∧ d.legalHold = false ∧ d.deletedAt = none
  | .withdrawing new _ => new = i
  | .collected _ pks _ => i ∈ pks
  | _ => false

/-- No block disposes of a document while a redemption that has read it awaits its commit. -/
def Undisturbed (s : Pool.State Store Worker) : Pool.Label Worker Choice Event → Prop
  | .act i _ => (s.workers[i]?).all (fun p => s.workers.all fun
    | .redemption _ _ _ document => !p.disposes s.store document.pk
    | _ => true) = true
  | _ => True

instance (s : Pool.State Store Worker) :
    (l : Pool.Label Worker Choice Event) → Decidable (Undisturbed s l)
  | .act .. => inferInstanceAs (Decidable (_ = true))
  | .spawn _ | .die _ | .env _ => inferInstanceAs (Decidable True)

theorem available_iff : d.available = true ↔ d.scanStatus = .active ∧ d.deletedAt = none := by
  simp [Document.available]

theorem Change.available {i : ℕ} (h : Change cfg e s p t) (hs : s.Available i)
    (hdisposes : p.disposes s i = false) : t.Available i := by
  obtain ⟨d, hd, rfl, havailable⟩ := hs
  obtain ⟨hactive, hlive⟩ := available_iff.mp havailable
  have hdrops : p.drops d = false := by
    cases p with
    | collected => exact hdisposes
    | withdrawing new previous =>
      have hne : new ≠ d.pk := of_decide_eq_false hdisposes
      exact decide_eq_false hne.symm
    | _ => rfl
  obtain ⟨a, ha, hrow⟩ := h.persists hd hdrops
  refine ⟨a, ha, hrow.pk_eq, ?_⟩
  cases hrow with
  | kept | flagged => exact havailable
  | touched touch =>
    cases touch with
    | softDeleted hpk hheld | expired hpk hheld | fulfilled hpk hheld =>
      have hspared : ∀ x ∈ s.documents.rows, x.pk = d.pk → x.legalHold = false →
          ¬ x.deletedAt = none := by simpa [Worker.disposes, hpk.symm] using hdisposes
      exact absurd hlive (hspared d hd rfl hheld)
    | purged hstatus | bypassed _ hstatus | promoted hstatus | activated hstatus
    | quarantined _ hstatus | failed hstatus =>
      rw [hactive] at hstatus
      cases hstatus
    | confirmed hstatus =>
      rw [hactive] at hstatus
      rcases hstatus with hstatus | hstatus <;> cases hstatus
    | held | released => exact havailable

theorem Worker.Holds.stable (h : q.Holds s) (htokens : TokenStep s t p)
    (hdocs : ∀ token user usedAt d, q = .redemption token user usedAt d →
      s.Available d.pk → t.Available d.pk) : q.Holds t := by
  cases q with
  | redemption token user usedAt document =>
    obtain ⟨⟨hlt, hrows⟩, havailable⟩ := h
    refine ⟨⟨lt_of_lt_of_le hlt htokens.next_le, fun b hb hpk => ?_⟩,
      hdocs _ _ _ _ rfl havailable⟩
    obtain ⟨a, ha, hapk, hfollows⟩ := htokens.row hlt hb hpk
    rw [hfollows.issuedTo, hfollows.expiresAt, hfollows.document]
    exact hrows a ha hapk
  | _ => trivial

theorem Next.holds (h : Next cfg e s t p q) : q.Holds t := by
  cases h with
  | redeeming hrun hs =>
    subst hs
    obtain ⟨-, ha, hd, hdocument, huser, -, hexpires, havailable⟩ := readToken_ok hrun
    refine ⟨⟨t.tokens.used _ ha, fun b hb hpk => ?_⟩, _, hd, rfl, havailable⟩
    obtain rfl := Table.eq_of_pk hb ha hpk
    exact ⟨huser, hexpires, hdocument⟩
  | cleanup | deleted =>
    unfold Worker.nextStale
    split <;> trivial
  | _ => trivial

/-! ## What has been redeemed -/

/-- A redemption was the owner's, in time, and of a document that was there to be served. -/
structure Redemption.Valid (x : Redemption) : Prop where
  owner : x.user = x.token.issuedTo
  timely : x.usedAt < x.token.expiresAt
  served : ∃ d, x.document = some d ∧ d.pk = x.token.document ∧ d.scanStatus = .active ∧
    d.deletedAt = none

/-- The tokens that have been redeemed are different ones, and cannot be redeemed again. -/
structure Store.Redeemed (s : Store) : Prop where
  once : (s.redemptions.map (·.token.pk)).Nodup
  valid : ∀ x ∈ s.redemptions, x.Valid
  spent : ∀ x ∈ s.redemptions, x.token.pk < s.tokens.next ∧
    ∀ a ∈ s.tokens.rows, a.pk = x.token.pk → a.usedAt.isSome = true

theorem spent_stable {x : Redemption} (htokens : TokenStep s t p)
    (h : x.token.pk < s.tokens.next ∧
      ∀ a ∈ s.tokens.rows, a.pk = x.token.pk → a.usedAt.isSome = true) :
    x.token.pk < t.tokens.next ∧
      ∀ a ∈ t.tokens.rows, a.pk = x.token.pk → a.usedAt.isSome = true := by
  refine ⟨lt_of_lt_of_le h.1 htokens.next_le, fun b hb hpk => ?_⟩
  obtain ⟨a, ha, hapk, hfollows⟩ := htokens.row h.1 hb hpk
  exact hfollows.used (h.2 a ha hapk)

theorem TokenStep.redeemed_step (h : TokenStep s t p) (hs : s.Redeemed) (hp : p.Holds s) :
    t.Redeemed := by
  have hsame (hredemptions : t.redemptions = s.redemptions) : t.Redeemed := by
    refine ⟨hredemptions ▸ hs.once, hredemptions ▸ hs.valid, fun x hx => ?_⟩
    exact spent_stable h (hs.spent x (hredemptions ▸ hx))
  cases h with
  | kept _ hredemptions | issued _ _ hredemptions | dropped _ hredemptions =>
    exact hsame hredemptions
  | @redeemed a user usedAt document hp' ha hused hdocs htokens hredemptions =>
    have hstep : TokenStep s t p := .redeemed hp' ha hused hdocs htokens hredemptions
    subst hp'
    obtain ⟨⟨hlt, hrows⟩, d, hd, hdpk, havailable⟩ := hp
    obtain ⟨hissued, hexpires, hdocument⟩ := hrows a ha rfl
    have hget : s.documents.get a.document = some d :=
      Numbered.get_eq_some.mpr ⟨hd, hdpk.trans hdocument.symm⟩
    refine ⟨?_, fun x hx => ?_, fun x hx => ?_⟩
    · -- A token that has been redeemed is not unused.
      rw [hredemptions, List.map_append, List.nodup_append]
      refine ⟨hs.once, by simp, fun i hi j hj => ?_⟩
      obtain ⟨x, hx, rfl⟩ := List.mem_map.mp hi
      rw [List.map_singleton, List.mem_singleton] at hj
      rintro rfl
      have hspent := (hs.spent x hx).2 a ha hj.symm
      rw [hused] at hspent
      cases hspent
    · rw [hredemptions, List.mem_append, List.mem_singleton] at hx
      rcases hx with hx | rfl
      · exact hs.valid x hx
      · obtain ⟨hactive, hlive⟩ := available_iff.mp havailable
        exact ⟨hissued.symm, hexpires, d, hget, hdpk.trans hdocument.symm, hactive, hlive⟩
    · rw [hredemptions, List.mem_append, List.mem_singleton] at hx
      rcases hx with hx | rfl
      · exact spent_stable hstep (hs.spent x hx)
      · refine ⟨lt_of_lt_of_le hlt hstep.next_le, fun b hb hpk => ?_⟩
        rw [htokens, mem_redeem ha] at hb
        rcases hb with ⟨-, hne⟩ | rfl
        · exact absurd hpk hne
        · rfl

theorem env_holds {x : Event} (h : (documents cfg).env s x = some t) (hq : q.Holds s) :
    q.Holds t := by
  obtain ⟨⟨-, -, -, htokens, hredemptions⟩, -⟩ := env_change h
  have hstep : TokenStep s t q := .kept htokens hredemptions
  refine hq.stable hstep fun _ _ _ d _ ⟨b, hb, hrest⟩ => ?_
  exact ⟨b, (env_rows h).1 b hb, hrest⟩

/-- In every run, each token is redeemed once at most, by its owner and in time; what it serves is
active when the redemption commits, as long as nobody disposes of it meanwhile. -/
theorem redeemed_once {s : Pool.State Store Worker}
    (h : ((documents cfg).machine.under Undisturbed).Reachable s) :
    (s.store.redemptions.map (·.token.pk)).Nodup ∧ ∀ x ∈ s.store.redemptions, x.Valid := by
  have hredeemed : s.store.Redeemed := by
    refine (Program.invariant_under (I := Store.Redeemed) (J := fun s p => p.Holds s) ?_ ?_ ?_ ?_ ?_
      h).1
    · intro st h₀
      have hnone : st.redemptions = [] := h₀.2.2.2.2.2
      exact ⟨by simp [hnone], by simp [hnone], by simp [hnone]⟩
    · intro st p _ hentry
      cases p <;> trivial
    · intro st _
      trivial
    · intro s i p e st q hc hI hJ hp hact
      have htokens := act_tokens hact
      refine ⟨htokens.redeemed_step hI (hJ p (List.mem_of_getElem? hp)), (act_next hact).holds,
        fun j r _ hr => (hJ r (List.mem_of_getElem? hr)).stable htokens ?_⟩
      rintro token user usedAt d rfl havailable
      refine (act_change hact).2.available havailable ?_
      have hc : (s.workers[i]?).all _ = true := hc
      rw [hp, Option.all_some, List.all_eq_true] at hc
      simpa using hc _ (List.mem_of_getElem? hr)
    · intro s x st _ hI hJ henv
      obtain ⟨⟨-, -, -, htokens, hredemptions⟩, -⟩ := env_change henv
      have hstep : TokenStep s.store st .dead := .kept htokens hredemptions
      exact ⟨hstep.redeemed_step hI trivial, fun r hr => env_holds henv (hJ r hr)⟩
  exact ⟨hredeemed.once, hredeemed.valid⟩

/-- The owner asks for a token and begins to redeem it. -/
def openRedemption : List (Pool.Label Worker Choice Event) :=
  [.env (.generate receipt 1 [80]),
    .spawn (.calling (.issueAccessToken { receipt with uploadedBy := 9 } officer)),
    .act 0 { token := 4 }, .spawn (.redeeming 4 9), .act 1 {}]

theorem openRedemption_valid :
    ∃ x ∈ (((documents plainSettings).machine.under Undisturbed).final ⟨emptyStore, []⟩
      (openRedemption ++ [.act 1 {}])).store.redemptions, x.token.pk = 1 ∧ x.Valid := by
  have hreach := Machine.Reachable.final
    (M := (documents plainSettings).machine.under Undisturbed) (s := ⟨emptyStore, []⟩)
    ⟨init_emptyStore plainSettings, rfl⟩ (openRedemption ++ [.act 1 {}])
  have hrow : (((documents plainSettings).machine.under Undisturbed).final ⟨emptyStore, []⟩
      (openRedemption ++ [.act 1 {}])).store.redemptions.any (·.token.pk = 1) = true := by
    decide +kernel
  obtain ⟨x, hx, hpk⟩ := List.any_eq_true.mp hrow
  exact ⟨x, hx, of_decide_eq_true hpk, (redeemed_once hreach).2 x hx⟩

/-- The document is deleted before the redemption commits. -/
def disturbedRedemption : Pool.State Store Worker :=
  (documents plainSettings).machine.final ⟨emptyStore, []⟩ (openRedemption ++
    [.spawn (.calling (.softDelete receipt none "")), .act 2 {}, .act 1 {}])

theorem disturbedRedemption_fails : ¬ ∀ s : Pool.State Store Worker,
    (documents plainSettings).machine.Reachable s → ∀ x ∈ s.store.redemptions, x.Valid := by
  intro h
  have hreach : (documents plainSettings).machine.Reachable disturbedRedemption :=
    Machine.Reachable.final (M := (documents plainSettings).machine)
      (s := ⟨emptyStore, []⟩) ⟨init_emptyStore plainSettings, rfl⟩ _
  have hrow : disturbedRedemption.store.redemptions.any (fun x =>
      x.document.any (·.scanStatus = .deleted)) = true := by decide +kernel
  obtain ⟨x, hx, hdeleted⟩ := List.any_eq_true.mp hrow
  obtain ⟨d, hd, -, hactive, -⟩ := (h _ hreach x hx).served
  rw [hd, Option.any_some, hactive] at hdeleted
  cases hdeleted

end Civicos.Documents
