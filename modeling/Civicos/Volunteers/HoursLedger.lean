import Civicos.Volunteers.Hours

/-!
# The ledger of hours

The total of a profile only grows, and a callback that writes it has added up what is approved
while it holds the lock. So the total lags behind the approved hours only while a callback is
pending, and the callback that takes the total past a threshold has seen a total below it.
-/
namespace Civicos.Volunteers

open Library Library.Transaction

variable {s t : Store} {u v : Ledger} {l : HoursLog} {c a : Callback} {k log : ℕ}
  {w w' : HoursWorker} {oldTotal total threshold : Hundredths} {actor : Actor}

/-! ## Approved hours -/

def HoursLog.counts (k : ℕ) (l : HoursLog) : Bool := l.volunteer = k ∧ l.status = .approved

theorem approvedHours_eq : s.approvedHours k =
    ((s.hoursLogs.rows.filter (HoursLog.counts k)).map HoursLog.hours).sum := rfl

/-- The table of logs with another state of one row. -/
def Store.redecided (s : Store) (l : HoursLog) (f : HoursLog → LogState) :
    Numbered HoursLog.schema :=
  s.hoursLogs.rewrite (·.pk = l.pk) (.withState f) (HoursLog.preserves f)

theorem approvedHours_redecided {f : HoursLog → LogState} (hl : l ∈ s.hoursLogs.rows)
    (hpending : l.status = .pending) (ht : t.hoursLogs = s.redecided l f) :
    t.approvedHours k =
      s.approvedHours k + if l.volunteer = k ∧ (f l).status = .approved then l.hours else 0 := by
  have hsum := Numbered.sum_rewrite_row (q := HoursLog.counts k) (w := HoursLog.hours)
    (HoursLog.preserves f) hl
  have hbefore : ¬ l.counts k = true := by simp [HoursLog.counts, hpending]
  rw [if_neg hbefore, Nat.add_zero] at hsum
  rw [approvedHours_eq, approvedHours_eq, ht]
  exact hsum.trans (congrArg _ (if_congr decide_eq_true_iff rfl rfl))

theorem approvedHours_logged (hrows : t.hoursLogs.rows = s.hoursLogs.rows ++ [l])
    (hpending : l.status = .pending) : t.approvedHours k = s.approvedHours k := by
  unfold Store.approvedHours
  rw [hrows, List.filter_append, List.filter_singleton]
  simp [hpending]

/-- Nobody has approved hours without a log. -/
theorem approvedHours_of_none (h : ∀ l ∈ s.hoursLogs.rows, l.volunteer ≠ k) :
    s.approvedHours k = 0 := by
  unfold Store.approvedHours
  rw [List.filter_eq_nil_iff.mpr]
  · rfl
  · intro l hl
    simp [h l hl]

/-! ## What a block does -/

theorem pendingLog_ok {refusal : VolunteerError} (h : pendingLog log refusal s = .ok (l, t)) :
    l ∈ s.hoursLogs.rows ∧ l.pk = log ∧ l.status = .pending ∧ t = s := by
  obtain ⟨l', hget, h₁⟩ := fetch_bind.mp h
  obtain ⟨hl, hpk⟩ := Numbered.get_eq_some.mp hget
  obtain ⟨hpending, h₂⟩ := guard_ok h₁
  obtain ⟨rfl, rfl⟩ := pure_ok.mp h₂
  exact ⟨hl, hpk, not_not.mp hpending, rfl⟩

theorem readOldTotal_ok (h : readOldTotal log s = .ok (oldTotal, t)) :
    ∃ l ∈ s.hoursLogs.rows, l.pk = log ∧ ∃ x ∈ s.profiles.rows, x.pk = l.volunteer ∧
      x.totalHoursApproved = oldTotal := by
  obtain ⟨l, _, hpending, h₁⟩ := bind_ok.mp h
  obtain ⟨hl, hpk, -, rfl⟩ := pendingLog_ok hpending
  obtain ⟨x, hget, h₂⟩ := fetch_bind.mp h₁
  obtain ⟨hx, hxpk⟩ := Numbered.get_eq_some.mp hget
  exact ⟨l, hl, hpk, x, hx, hxpk, (pure_ok.mp h₂).1.symm⟩

/-- The logs of hours after one of them has been decided. -/
structure Decides (u v : Ledger) (l : HoursLog) (f : HoursLog → LogState) : Prop where
  mem : l ∈ u.store.hoursLogs.rows
  pending : l.status = .pending
  decided : (f l).status ≠ .pending
  logs : v.store.hoursLogs = u.store.redecided l f
  profiles : v.store.profiles = u.store.profiles
  milestones : v.store.milestones = u.store.milestones
  record : v.decided = u.decided ++ [(l.pk, (f l).status)]

theorem commitApproval_ok {r : Unit} (h : commitApproval log actor oldTotal u = .ok (r, v)) :
    ∃ l f, l.pk = log ∧ Decides u v l f ∧ (f l).status = .approved ∧
      v.callbacks.rows = u.callbacks.rows ++
        [{ pk := u.callbacks.next, volunteer := l.volunteer, oldTotal, progress := .queued }] := by
  obtain ⟨l, _, hzoom, h₁⟩ := bind_ok.mp h
  obtain ⟨t, happrove, rfl⟩ := zoom_ok.mp hzoom
  obtain ⟨l', _, hlog, h₂⟩ := bind_ok.mp happrove
  obtain ⟨hl, hpk, hpending, rfl⟩ := pendingLog_ok hlog
  obtain ⟨_, _, ⟨⟩, h₃⟩ := bind_ok.mp h₂
  have h₄ := rewriteRows_bind.mp h₃
  obtain ⟨rfl, rfl⟩ := pure_ok.mp h₄
  obtain ⟨b, _, happend, ⟨⟩⟩ := bind_ok.mp h₁
  obtain ⟨-, C, hC, rfl⟩ := append_ok.mp happend
  exact ⟨l, _, hpk, ⟨hl, hpending, by simp [HoursLog.approvedAs], rfl, rfl, rfl, rfl⟩, rfl,
    Numbered.insert_rows hC fun _ => rfl⟩

theorem commitRejection_ok {reason : String} {r : Unit}
    (h : commitRejection log reason u = .ok (r, v)) :
    ∃ l f, Decides u v l f ∧ (f l).status = .rejected ∧ v.callbacks = u.callbacks := by
  obtain ⟨l, _, hzoom, h₁⟩ := bind_ok.mp h
  obtain ⟨t, hreject, rfl⟩ := zoom_ok.mp hzoom
  obtain ⟨l', _, hlog, h₂⟩ := bind_ok.mp hreject
  obtain ⟨hl, hpk, hpending, rfl⟩ := pendingLog_ok hlog
  have h₃ := rewriteRows_bind.mp h₂
  obtain ⟨rfl, rfl⟩ := pure_ok.mp h₃
  obtain ⟨⟨⟩⟩ := h₁
  exact ⟨l, HoursLog.rejectedAs reason,
    ⟨hl, hpending, by simp [HoursLog.rejectedAs], rfl, rfl, rfl, rfl⟩, rfl, rfl⟩

/-! ## The invariant -/

namespace Ledger

/-- The total of a volunteer is at least `bound`. -/
def AtLeast (u : Ledger) (k : ℕ) (bound : Hundredths) : Prop :=
  ∃ x ∈ u.store.profiles.rows, x.pk = k ∧ bound ≤ x.totalHoursApproved

def Awarded (u : Ledger) (k : ℕ) (threshold : Hundredths) : Prop :=
  ∃ m ∈ u.store.milestones.rows, m.volunteer = k ∧ m.hoursThreshold = threshold

/-- What a pending callback can rely on. -/
def Backed (u : Ledger) (c : Callback) : Prop :=
  match c.progress with
  | .queued => u.AtLeast c.volunteer c.oldTotal
  | .summed total => u.AtLeast c.volunteer c.oldTotal ∧
      total ≤ u.store.approvedHours c.volunteer ∧
      ∀ x ∈ u.store.profiles.rows, x.pk = c.volunteer → x.totalHoursApproved ≤ total
  | .awarding thresholds => ∀ threshold ∈ thresholds, threshold ∈ milestoneThresholds

/-- A callback that is about to bring the total up to date. -/
def Refreshes (u : Ledger) (k : ℕ) (c : Callback) : Prop :=
  c.volunteer = k ∧ (c.progress = .queued ∨ c.progress = .summed (u.store.approvedHours k))

/-- A callback that is about to award a milestone. -/
def Awards (k : ℕ) (threshold : Hundredths) (c : Callback) : Prop :=
  c.volunteer = k ∧ ∃ rest, c.progress = .awarding rest ∧ threshold ∈ rest

/-- The total of a profile, and its milestones. -/
structure Kept (u : Ledger) (x : VolunteerProfile) : Prop where
  bounded : x.totalHoursApproved ≤ u.store.approvedHours x.pk
  fresh : x.totalHoursApproved = u.store.approvedHours x.pk ∨
    ∃ c ∈ u.callbacks.rows, u.Refreshes x.pk c
  awarded : ∀ threshold ∈ milestoneThresholds, threshold ≤ x.totalHoursApproved →
    u.Awarded x.pk threshold ∨ ∃ c ∈ u.callbacks.rows, Awards x.pk threshold c

structure Sound (u : Ledger) : Prop where
  owners : ∀ l ∈ u.store.hoursLogs.rows, u.AtLeast l.volunteer 0
  kept : ∀ x ∈ u.store.profiles.rows, u.Kept x
  backed : ∀ c ∈ u.callbacks.rows, u.Backed c
  holder : ∀ a ∈ u.callbacks.rows, ∀ c ∈ u.callbacks.rows, a.volunteer = c.volunteer →
    a.locks = true → c.locks = true → a = c
  once : (u.decided.map (·.1)).Nodup
  settled : ∀ d ∈ u.decided, d.2 ≠ .pending ∧
    ∃ l ∈ u.store.hoursLogs.rows, l.pk = d.1 ∧ l.status = d.2

/-- What an approval knows while it holds the lock of its log. -/
def Held (u : Ledger) : HoursWorker → Prop
  | .holding log _ oldTotal =>
    ∃ l ∈ u.store.hoursLogs.rows, l.pk = log ∧ u.AtLeast l.volunteer oldTotal
  | _ => True

/-- Totals only grow, and a log stays with its volunteer. -/
structure Grows (u v : Ledger) : Prop where
  totals : ∀ k bound, u.AtLeast k bound → v.AtLeast k bound
  logs : ∀ l ∈ u.store.hoursLogs.rows, ∃ l' ∈ v.store.hoursLogs.rows, l'.pk = l.pk ∧
    l'.volunteer = l.volunteer

theorem Held.of_grows (h : u.Held w) (hgrows : u.Grows v) : v.Held w := by
  cases w with
  | holding log actor oldTotal =>
    obtain ⟨l, hl, hpk, hbound⟩ := h
    obtain ⟨l', hl', hpk', hvolunteer⟩ := hgrows.logs l hl
    exact ⟨l', hl', hpk'.trans hpk, hvolunteer ▸ hgrows.totals _ _ hbound⟩
  | _ => trivial

theorem Grows.refl (u : Ledger) : u.Grows u := ⟨fun _ _ h => h, fun l hl => ⟨l, hl, rfl, rfl⟩⟩

theorem AtLeast.of_profiles {bound : Hundredths} (h : u.AtLeast k bound)
    (hprofiles : v.store.profiles = u.store.profiles) : v.AtLeast k bound := by
  unfold AtLeast
  rw [hprofiles]
  exact h

/-! ## A log is decided -/

section Decided

variable {f : HoursLog → LogState} (h : Decides u v l f)
include h

theorem decided_logs : ∀ a ∈ u.store.hoursLogs.rows, ∃ a' ∈ v.store.hoursLogs.rows,
    a'.pk = a.pk ∧ a'.volunteer = a.volunteer ∧ (a.pk ≠ l.pk → a' = a) := by
  intro a ha
  rw [h.logs]
  refine ⟨_, Numbered.mem_rewrite.mpr ⟨a, ha, rfl⟩, ?_⟩
  split
  next hpk => exact ⟨rfl, rfl, fun hne => absurd (of_decide_eq_true hpk) hne⟩
  next => exact ⟨rfl, rfl, fun _ => rfl⟩

theorem grows_decided : u.Grows v where
  totals _ _ hbound := hbound.of_profiles h.profiles
  logs a ha := by
    obtain ⟨a', ha', hpk, hvolunteer, -⟩ := decided_logs h a ha
    exact ⟨a', ha', hpk, hvolunteer⟩

theorem owners_decided (hu : u.Sound) : ∀ a ∈ v.store.hoursLogs.rows, v.AtLeast a.volunteer 0 := by
  intro a ha
  rw [h.logs] at ha
  obtain ⟨b, hb, rfl⟩ := Numbered.mem_rewrite.mp ha
  have hbound := (hu.owners b hb).of_profiles h.profiles
  split <;> exact hbound

/-- A pending log has not been decided before. -/
theorem once_decided (hu : u.Sound) : (v.decided.map (·.1)).Nodup := by
  rw [h.record, List.map_append]
  refine List.nodup_append.mpr ⟨hu.once, by simp, ?_⟩
  rintro k hk _ hsame rfl
  obtain rfl := List.mem_singleton.mp hsame
  obtain ⟨d, hd, hdpk⟩ := List.mem_map.mp hk
  obtain ⟨hdecided, a, ha, hpk, hstatus⟩ := hu.settled d hd
  obtain rfl : a = l := Table.eq_of_pk ha h.mem (hpk.trans hdpk)
  exact hdecided (hstatus.symm.trans h.pending)

theorem settled_decided (hu : u.Sound) : ∀ d ∈ v.decided, d.2 ≠ .pending ∧
    ∃ a ∈ v.store.hoursLogs.rows, a.pk = d.1 ∧ a.status = d.2 := by
  intro d hd
  rw [h.record] at hd
  rcases List.mem_append.mp hd with hd | hd
  · obtain ⟨hdecided, a, ha, hpk, hstatus⟩ := hu.settled d hd
    obtain ⟨a', ha', hpk', -, hsame⟩ := decided_logs h a ha
    have hne : a.pk ≠ l.pk := by
      intro heq
      rw [Table.eq_of_pk ha h.mem heq, h.pending] at hstatus
      exact hdecided hstatus.symm
    obtain rfl := hsame hne
    exact ⟨hdecided, a', ha', hpk, hstatus⟩
  · obtain rfl := List.mem_singleton.mp hd
    refine ⟨h.decided, l.withState f, ?_, rfl, rfl⟩
    rw [h.logs]
    exact (Numbered.mem_rewrite_row (HoursLog.preserves f) h.mem).mpr (.inr rfl)

theorem approvedHours_decided : v.store.approvedHours k = u.store.approvedHours k +
    if l.volunteer = k ∧ (f l).status = .approved then l.hours else 0 :=
  approvedHours_redecided h.mem h.pending h.logs

theorem approvedHours_le : u.store.approvedHours k ≤ v.store.approvedHours k :=
  (approvedHours_decided h).symm ▸ Nat.le_add_right _ _

theorem backed_decided (hc : u.Backed c) : v.Backed c := by
  unfold Backed at hc ⊢
  split
  next heq =>
    rw [heq] at hc
    exact hc.of_profiles h.profiles
  next total heq =>
    rw [heq] at hc
    refine ⟨hc.1.of_profiles h.profiles, hc.2.1.trans (approvedHours_le h), ?_⟩
    rw [h.profiles]
    exact hc.2.2
  next thresholds heq =>
    rw [heq] at hc
    exact hc

end Decided

theorem Sound.rejected {f : HoursLog → LogState} (hu : u.Sound) (h : Decides u v l f)
    (hstatus : (f l).status = .rejected) (hcallbacks : v.callbacks = u.callbacks) : v.Sound where
  owners := owners_decided h hu
  kept x hx := by
    rw [h.profiles] at hx
    obtain ⟨hbounded, hfresh, hawarded⟩ := hu.kept x hx
    have hsame : v.store.approvedHours x.pk = u.store.approvedHours x.pk := by
      rw [approvedHours_decided h, if_neg (by simp [hstatus]), Nat.add_zero]
    refine ⟨hsame ▸ hbounded, ?_, fun threshold hmem hle => ?_⟩
    · unfold Refreshes
      rw [hsame, hcallbacks]
      exact hfresh
    · unfold Awarded
      rw [h.milestones, hcallbacks]
      exact hawarded threshold hmem hle
  backed c hc := backed_decided h (hu.backed c (hcallbacks ▸ hc))
  holder a ha c hc := hu.holder a (hcallbacks ▸ ha) c (hcallbacks ▸ hc)
  once := once_decided h hu
  settled := settled_decided h hu

/-- An approval leaves a callback for the total that it makes out of date. -/
theorem Sound.approved {f : HoursLog → LogState} (hu : u.Sound) (h : Decides u v l f)
    (hheld : u.AtLeast l.volunteer oldTotal)
    (hcallbacks : v.callbacks.rows = u.callbacks.rows ++
      [{ pk := u.callbacks.next, volunteer := l.volunteer, oldTotal, progress := .queued }]) :
    v.Sound where
  owners := owners_decided h hu
  kept x hx := by
    rw [h.profiles] at hx
    obtain ⟨hbounded, hfresh, hawarded⟩ := hu.kept x hx
    refine ⟨hbounded.trans (approvedHours_le h), ?_, fun threshold hmem hle => ?_⟩
    · rw [hcallbacks]
      by_cases hvolunteer : l.volunteer = x.pk
      · exact .inr ⟨_, List.mem_append_right _ (List.mem_singleton_self _), hvolunteer, .inl rfl⟩
      · have hsame : v.store.approvedHours x.pk = u.store.approvedHours x.pk := by
          rw [approvedHours_decided h, if_neg (fun hboth => hvolunteer hboth.1), Nat.add_zero]
        unfold Refreshes
        rw [hsame]
        exact hfresh.imp_right fun ⟨c, hc, hrefreshes⟩ => ⟨c, List.mem_append_left _ hc, hrefreshes⟩
    · unfold Awarded
      rw [h.milestones, hcallbacks]
      exact (hawarded threshold hmem hle).imp_right fun ⟨c, hc, hawards⟩ =>
        ⟨c, List.mem_append_left _ hc, hawards⟩
  backed c hc := by
    rcases List.mem_append.mp (hcallbacks ▸ hc) with hc | hc
    · exact backed_decided h (hu.backed c hc)
    · obtain rfl := List.mem_singleton.mp hc
      exact hheld.of_profiles h.profiles
  holder a ha c hc hvolunteer hlocks hlocks' := by
    rcases List.mem_append.mp (hcallbacks ▸ ha) with ha | ha
    · rcases List.mem_append.mp (hcallbacks ▸ hc) with hc | hc
      · exact hu.holder a ha c hc hvolunteer hlocks hlocks'
      · obtain rfl := List.mem_singleton.mp hc
        cases hlocks'
    · obtain rfl := List.mem_singleton.mp ha
      cases hlocks
  once := once_decided h hu
  settled := settled_decided h hu

/-! ## A callback runs -/

/-- A callback goes on as `next`, and the logs stay as they are. -/
structure Advances (u v : Ledger) (c : Callback) (next : List Callback) : Prop where
  logs : v.store.hoursLogs = u.store.hoursLogs
  record : v.decided = u.decided
  mem : ∀ a, a ∈ v.callbacks.rows ↔ (a ∈ u.callbacks.rows ∧ a ≠ c) ∨ a ∈ next

inductive Runs (u v : Ledger) (c : Callback) : Prop where
  | summed (hqueued : c.progress = .queued) (hstore : v.store = u.store)
    (advances : Advances u v c
      [c.withProgress (.summed (u.store.approvedHours c.volunteer))])
  | written {total : Hundredths} (hsummed : c.progress = .summed total)
    (hprofiles : v.store.profiles = u.store.profiles.rewrite (·.pk = c.volunteer)
      (.withTotal total) (VolunteerProfile.preserves total))
    (hmilestones : v.store.milestones = u.store.milestones)
    (advances : Advances u v c [c.withProgress (.awarding (milestoneThresholds.filter
      fun threshold => c.oldTotal < threshold ∧ threshold ≤ total))])
  | awarded {threshold : Hundredths} {rest : List Hundredths}
    (hawarding : c.progress = .awarding (threshold :: rest))
    (hprofiles : v.store.profiles = u.store.profiles)
    (hmilestones : ∀ m ∈ u.store.milestones.rows, m ∈ v.store.milestones.rows)
    (hnew : v.Awarded c.volunteer threshold)
    (advances : Advances u v c [c.withProgress (.awarding rest)])
  | finished (hawarding : c.progress = .awarding []) (hstore : v.store = u.store)
    (advances : Advances u v c [])

theorem mem_withProgress {progress : Progress} (hc : c ∈ u.callbacks.rows) :
    a ∈ (u.callbacks.rewrite (·.pk = c.pk) (.withProgress progress)
        (Callback.preserves progress)).rows ↔
      (a ∈ u.callbacks.rows ∧ a ≠ c) ∨ a ∈ [c.withProgress progress] := by
  have hpk (ha : a ∈ u.callbacks.rows) : a.pk ≠ c.pk ↔ a ≠ c :=
    not_congr ⟨fun hpk => Table.eq_of_pk ha hc hpk, congrArg Callback.pk⟩
  refine (Numbered.mem_rewrite_row (Callback.preserves progress) hc).trans ?_
  rw [List.mem_singleton]
  exact or_congr_left (and_congr_right hpk)

theorem mem_removed (hc : c ∈ u.callbacks.rows) :
    a ∈ (u.callbacks.keep fun r => !decide (r.pk = c.pk)).rows ↔
      (a ∈ u.callbacks.rows ∧ a ≠ c) ∨ a ∈ ([] : List Callback) := by
  have hpk (ha : a ∈ u.callbacks.rows) : a.pk ≠ c.pk ↔ a ≠ c :=
    not_congr ⟨fun hpk => Table.eq_of_pk ha hc hpk, congrArg Callback.pk⟩
  simp only [Numbered.rows_keep, List.mem_filter, Bool.not_eq_true', decide_eq_false_iff_not,
    List.not_mem_nil, or_false]
  exact and_congr_right hpk

/-- The milestone is there afterwards, whoever has created it. -/
theorem getOrCreateMilestone_ok {r : Unit}
    (h : getOrCreateMilestone k threshold s = .ok (r, t)) :
    t.hoursLogs = s.hoursLogs ∧ t.profiles = s.profiles ∧
      (∀ m ∈ s.milestones.rows, m ∈ t.milestones.rows) ∧
      ∃ m ∈ t.milestones.rows, m.volunteer = k ∧ m.hoursThreshold = threshold := by
  obtain ⟨_, _, ⟨⟩, h₁⟩ := bind_ok.mp h
  split at h₁
  next hany =>
    obtain ⟨-, rfl⟩ := pure_ok.mp h₁
    obtain ⟨m, hm, hboth⟩ := List.any_eq_true.mp hany
    exact ⟨rfl, rfl, fun m hm => hm, m, hm, of_decide_eq_true hboth⟩
  next =>
    obtain ⟨m, _, happend, ⟨⟩⟩ := bind_ok.mp h₁
    obtain ⟨-, T, hT, rfl⟩ := append_ok.mp happend
    have hrows := Numbered.insert_rows hT fun _ => rfl
    refine ⟨rfl, rfl, fun m hm => ?_,
      { pk := s.milestones.next, volunteer := k, hoursThreshold := threshold }, ?_, rfl, rfl⟩
    · exact hrows ▸ List.mem_append_left _ hm
    · exact hrows ▸ List.mem_append_right _ (List.mem_singleton_self _)

theorem getOrCreateMilestone_returns (hmem : threshold ∈ milestoneThresholds) :
    ∃ t, getOrCreateMilestone k threshold s = .ok ((), t) := by
  by_cases hany : (s.milestones.rows.any fun m =>
      m.volunteer = k ∧ m.hoursThreshold = threshold) = true
  · exact ⟨s, (bind_of_ok get_apply).trans (congrFun (if_pos hany) s)⟩
  · let build (pk : ℕ) : RecognitionMilestone := { pk, volunteer := k, hoursThreshold := threshold }
    obtain ⟨T, hT⟩ : ∃ T, s.milestones.insert build = .ok T := by
      refine (Numbered.insert_returns rfl).mpr ⟨fun c hc => ?_, fun m hm i hi hclash => hany ?_⟩
      · obtain rfl := List.mem_singleton.mp hc
        have hmin : ∀ threshold ∈ milestoneThresholds, hours 1 ≤ threshold := by decide
        exact decide_eq_true (hmin threshold hmem)
      · obtain rfl := List.mem_singleton.mp hi
        have hboth : (m.volunteer, m.hoursThreshold) = (k, threshold) := Option.some.inj hclash.2
        obtain ⟨hvolunteer, hthreshold⟩ := Prod.mk.inj hboth
        exact List.any_eq_true.mpr ⟨m, hm, decide_eq_true ⟨hvolunteer, hthreshold⟩⟩
    have happend : append Store.milestoneTable VolunteerError.ofViolation build s =
        .ok (build s.milestones.next, { s with milestones := T }) := append_ok.mpr ⟨rfl, T, hT, rfl⟩
    exact ⟨{ s with milestones := T }, (bind_of_ok get_apply).trans
      ((congrFun (if_neg hany) s).trans (bind_of_ok happend))⟩

theorem runCallback_ok {r : Unit} (hc : c ∈ u.callbacks.rows)
    (h : runCallback c u = .ok (r, v)) : Runs u v c := by
  unfold runCallback at h
  cases hprogress : c.progress with
  | queued =>
    simp only [hprogress] at h
    obtain ⟨x, _, hzoom, h₁⟩ := bind_ok.mp h
    obtain ⟨t, hfetch, rfl⟩ := zoom_ok.mp hzoom
    obtain ⟨_, _, ⟨⟩, h₂⟩ := bind_ok.mp h₁
    cases hget : (Ledger.storeLens.get u).profiles.get c.volunteer with
    | none => simp [profileOf, fetch_of_none (ℓ := Store.profileTable) hget] at hfetch
    | some x' =>
      rw [profileOf, fetch_of_get (ℓ := Store.profileTable) hget] at hfetch
      have hpk : x'.pk = c.volunteer := (Numbered.get_eq_some.mp hget).2
      cases hfetch
      obtain rfl := rewriteRows_ok.mp h₂
      refine .summed hprogress rfl ⟨rfl, rfl, fun a => ?_⟩
      rw [← hpk]
      exact mem_withProgress hc
  | summed total =>
    simp only [hprogress] at h
    obtain ⟨_, _, hzoom, h₁⟩ := bind_ok.mp h
    obtain ⟨t, hsave, rfl⟩ := zoom_ok.mp hzoom
    obtain rfl := rewriteRows_ok.mp hsave
    obtain rfl := rewriteRows_ok.mp h₁
    exact .written hprogress rfl rfl ⟨rfl, rfl, fun a => mem_withProgress hc⟩
  | awarding thresholds =>
    cases thresholds with
    | nil =>
      simp only [hprogress] at h
      obtain rfl := removeRows_ok.mp h
      exact .finished hprogress rfl ⟨rfl, rfl, fun a => mem_removed hc⟩
    | cons threshold rest =>
      simp only [hprogress] at h
      obtain ⟨_, _, hzoom, h₁⟩ := bind_ok.mp h
      obtain ⟨t, hcreate, rfl⟩ := zoom_ok.mp hzoom
      obtain ⟨hlogs, hprofiles, hmilestones, hnew⟩ := getOrCreateMilestone_ok hcreate
      obtain rfl := rewriteRows_ok.mp h₁
      exact .awarded hprogress hprofiles hmilestones hnew
        ⟨hlogs, rfl, fun a => mem_withProgress hc⟩

section Advances

variable {next : List Callback}

/-- What some callback is about to do, another one is about to do after a step of a third. -/
theorem Advances.exists {p : Callback → Prop} (h : Advances u v c next)
    (hexists : ∃ a ∈ u.callbacks.rows, p a) (hc : p c → ∃ a ∈ next, p a) :
    ∃ a ∈ v.callbacks.rows, p a := by
  obtain ⟨a, ha, hp⟩ := hexists
  by_cases hac : a = c
  · obtain ⟨b, hb, hpb⟩ := hc (hac ▸ hp)
    exact ⟨b, (h.mem b).mpr (.inr hb), hpb⟩
  · exact ⟨a, (h.mem a).mpr (.inl ⟨ha, hac⟩), hp⟩

theorem Advances.approvedHours (h : Advances u v c next) :
    v.store.approvedHours k = u.store.approvedHours k := by
  unfold Store.approvedHours
  rw [h.logs]

theorem Advances.grows (h : Advances u v c next)
    (htotals : ∀ k bound, u.AtLeast k bound → v.AtLeast k bound) : u.Grows v where
  totals := htotals
  logs l hl := ⟨l, h.logs ▸ hl, rfl, rfl⟩

/-- A profile that is not written keeps its total and its milestones. -/
theorem Kept.advances {x : VolunteerProfile} (hx : u.Kept x) (h : Advances u v c next)
    (hfresh : u.Refreshes x.pk c → ∃ a ∈ next, u.Refreshes x.pk a)
    (hmilestones : ∀ threshold, u.Awarded x.pk threshold → v.Awarded x.pk threshold)
    (hawarded : ∀ threshold, Awards x.pk threshold c →
      v.Awarded x.pk threshold ∨ ∃ a ∈ next, Awards x.pk threshold a) : v.Kept x where
  bounded := h.approvedHours ▸ hx.bounded
  fresh := by
    unfold Refreshes
    rw [h.approvedHours]
    exact hx.fresh.imp_right fun hexists => h.exists hexists hfresh
  awarded threshold hmem hle := by
    rcases hx.awarded threshold hmem hle with hdone | ⟨a, ha, hawards⟩
    · exact .inl (hmilestones threshold hdone)
    · by_cases hac : a = c
      · rcases hawarded threshold (hac ▸ hawards) with hdone | ⟨b, hb, hawards'⟩
        · exact .inl hdone
        · exact .inr ⟨b, (h.mem b).mpr (.inr hb), hawards'⟩
      · exact .inr ⟨a, (h.mem a).mpr (.inl ⟨ha, hac⟩), hawards⟩

/-- What is left to show when a callback has run its next block. -/
theorem Sound.advances (hu : u.Sound) (h : Advances u v c next)
    (htotals : ∀ k bound, u.AtLeast k bound → v.AtLeast k bound)
    (hkept : ∀ x ∈ v.store.profiles.rows, v.Kept x)
    (hbacked : ∀ a ∈ u.callbacks.rows, a ≠ c → u.Backed a → v.Backed a)
    (hnext : ∀ a ∈ next, v.Backed a)
    (hholder : ∀ a ∈ next, a.locks = true → next = [a] ∧
      ∀ b ∈ u.callbacks.rows, b.volunteer = a.volunteer → b.locks = false) : v.Sound where
  owners l hl := htotals _ _ (hu.owners l (h.logs ▸ hl))
  kept := hkept
  backed a ha := by
    rcases (h.mem a).mp ha with ⟨ha, hac⟩ | ha
    · exact hbacked a ha hac (hu.backed a ha)
    · exact hnext a ha
  holder a ha b hb hvolunteer hlocks hlocks' := by
    rcases (h.mem a).mp ha with ⟨ha, hac⟩ | ha
    · rcases (h.mem b).mp hb with ⟨hb, hbc⟩ | hb
      · exact hu.holder a ha b hb hvolunteer hlocks hlocks'
      · have hfree := (hholder b hb hlocks').2 a ha hvolunteer
        rw [hlocks] at hfree
        cases hfree
    · obtain ⟨honly, hfree⟩ := hholder a ha hlocks
      rcases (h.mem b).mp hb with ⟨hb, hbc⟩ | hb
      · have hfree := hfree b hb hvolunteer.symm
        rw [hlocks'] at hfree
        cases hfree
      · exact (List.mem_singleton.mp (honly ▸ hb)).symm
  once := h.record ▸ hu.once
  settled := by
    rw [h.record, h.logs]
    exact hu.settled

theorem backed_congr (hprofiles : v.store.profiles = u.store.profiles)
    (hlogs : v.store.hoursLogs = u.store.hoursLogs) : v.Backed c ↔ u.Backed c := by
  have happroved : v.store.approvedHours c.volunteer = u.store.approvedHours c.volunteer := by
    unfold Store.approvedHours
    rw [hlogs]
  unfold Backed AtLeast
  rw [hprofiles, happroved]

end Advances

/-- The write of a total that has been added up under the lock. -/
theorem Sound.written (hu : u.Sound) (hc : c ∈ u.callbacks.rows)
    (hsummed : c.progress = .summed total)
    (hprofiles : v.store.profiles = u.store.profiles.rewrite (·.pk = c.volunteer)
      (.withTotal total) (VolunteerProfile.preserves total))
    (hmilestones : v.store.milestones = u.store.milestones)
    (h : Advances u v c [c.withProgress (.awarding (milestoneThresholds.filter
      fun threshold => c.oldTotal < threshold ∧ threshold ≤ total))]) :
    u.Grows v ∧ v.Sound := by
  have hbacked := hu.backed c hc
  unfold Backed at hbacked
  rw [hsummed] at hbacked
  obtain ⟨hold, happroved, hgrown⟩ := hbacked
  have hlocks : c.locks = true := by
    unfold Callback.locks
    rw [hsummed]
  have htotals : ∀ k bound, u.AtLeast k bound → v.AtLeast k bound := by
    rintro k bound ⟨x, hx, hpk, hbound⟩
    refine ⟨_, hprofiles ▸ Numbered.mem_rewrite.mpr ⟨x, hx, rfl⟩, ?_⟩
    split
    next hwritten => exact ⟨hpk, hbound.trans (hgrown x hx (of_decide_eq_true hwritten))⟩
    next => exact ⟨hpk, hbound⟩
  -- no other callback of the volunteer has added up a total
  have halone : ∀ a ∈ u.callbacks.rows, a ≠ c → a.volunteer = c.volunteer → a.locks = false :=
    fun a ha hac hvolunteer => Bool.eq_false_iff.mpr fun hlocks' =>
      hac (hu.holder a ha c hc hvolunteer hlocks' hlocks)
  refine ⟨h.grows htotals, hu.advances h htotals (fun y hy => ?_) (fun a ha hac ha' => ?_) ?_ ?_⟩
  · obtain ⟨x, hx, rfl⟩ := Numbered.mem_rewrite.mp (hprofiles ▸ hy)
    have hkept := hu.kept x hx
    split
    next hwritten =>
      have hpk : x.pk = c.volunteer := of_decide_eq_true hwritten
      refine ⟨?_, ?_, fun threshold hmem hle => ?_⟩
      · rw [h.approvedHours]
        exact hpk ▸ happroved
      · rcases hkept.fresh with heq | ⟨a, ha, hvolunteer, hqueued | hsummed'⟩
        · refine .inl ?_
          rw [h.approvedHours]
          exact le_antisymm (hpk ▸ happroved) (heq ▸ hgrown x hx hpk)
        · have hac : a ≠ c := by
            rintro rfl
            rw [hsummed] at hqueued
            cases hqueued
          exact .inr ⟨a, (h.mem a).mpr (.inl ⟨ha, hac⟩), hvolunteer, .inl hqueued⟩
        · have hlocks' : a.locks = true := by
            unfold Callback.locks
            rw [hsummed']
          obtain rfl := hu.holder a ha c hc (hvolunteer.trans hpk) hlocks' hlocks
          refine .inl ?_
          rw [h.approvedHours]
          exact Progress.summed.inj (hsummed.symm.trans hsummed')
      · by_cases hbefore : threshold ≤ x.totalHoursApproved
        · rcases hkept.awarded threshold hmem hbefore with hdone | hexists
          · refine .inl ?_
            unfold Awarded
            rw [hmilestones]
            exact hdone
          · refine .inr (h.exists hexists fun ⟨_, rest, hawarding, _⟩ => ?_)
            rw [hsummed] at hawarding
            cases hawarding
        · obtain ⟨x', hx', hpk', hbound⟩ := hold
          obtain rfl : x' = x := Table.eq_of_pk hx' hx (hpk'.trans hpk.symm)
          refine .inr ⟨_, (h.mem _).mpr (.inr (List.mem_singleton_self _)), hpk.symm, _, rfl, ?_⟩
          refine List.mem_filter.mpr ⟨hmem, decide_eq_true ⟨?_, hle⟩⟩
          exact hbound.trans_lt (not_le.mp hbefore)
    next hother =>
      have hne : c.volunteer ≠ x.pk := fun heq => hother (decide_eq_true heq.symm)
      refine hkept.advances h (fun hc => absurd hc.1 hne) (fun threshold hdone => ?_)
        fun threshold hc => absurd hc.1 hne
      unfold Awarded
      rw [hmilestones]
      exact hdone
  · unfold Backed at ha' ⊢
    cases hprogress : a.progress with
    | queued =>
      rw [hprogress] at ha'
      exact htotals _ _ ha'
    | summed total' =>
      rw [hprogress] at ha'
      refine ⟨htotals _ _ ha'.1, h.approvedHours ▸ ha'.2.1, fun y hy hpk => ?_⟩
      obtain ⟨x, hx, rfl⟩ := Numbered.mem_rewrite.mp (hprofiles ▸ hy)
      by_cases hwritten : decide (x.pk = c.volunteer) = true
      · rw [if_pos hwritten] at hpk
        have hfree := halone a ha hac (hpk.symm.trans (of_decide_eq_true hwritten))
        simp [Callback.locks, hprogress] at hfree
      · rw [if_neg hwritten] at hpk ⊢
        exact ha'.2.2 x hx hpk
    | awarding thresholds =>
      rw [hprogress] at ha'
      exact ha'
  · intro a ha
    obtain rfl := List.mem_singleton.mp ha
    exact fun threshold hmem => (List.mem_filter.mp hmem).1
  · intro a ha hlocks
    obtain rfl := List.mem_singleton.mp ha
    cases hlocks

/-- A callback that may run keeps the ledger sound. -/
theorem Sound.runs (hu : u.Sound) (hc : c ∈ u.callbacks.rows) (hfree : u.waits c = false)
    (h : Runs u v c) : u.Grows v ∧ v.Sound := by
  cases h with
  | summed hqueued hstore h =>
    have htotals : ∀ k bound, u.AtLeast k bound → v.AtLeast k bound :=
      fun k bound hbound => hbound.of_profiles (congrArg Store.profiles hstore)
    have hbacked := hu.backed c hc
    unfold Backed at hbacked
    rw [hqueued] at hbacked
    refine ⟨h.grows htotals, hu.advances h htotals (fun x hx => ?_) (fun a ha hac => ?_) ?_ ?_⟩
    · rw [hstore] at hx
      refine (hu.kept x hx).advances h (fun hrefreshes => ?_) (fun threshold hdone => ?_)
        fun threshold ⟨_, rest, hawarding, _⟩ => ?_
      · refine ⟨_, List.mem_singleton_self _, hrefreshes.1, .inr ?_⟩
        rw [← hrefreshes.1]
        rfl
      · unfold Awarded
        rw [hstore]
        exact hdone
      · rw [hqueued] at hawarding
        cases hawarding
    · exact (backed_congr (congrArg Store.profiles hstore) h.logs).mpr
    · intro a ha
      obtain rfl := List.mem_singleton.mp ha
      refine (backed_congr (congrArg Store.profiles hstore) h.logs).mpr ⟨hbacked, le_rfl, ?_⟩
      exact fun x hx hpk => hpk ▸ (hu.kept x hx).bounded
    · intro a ha _
      obtain rfl := List.mem_singleton.mp ha
      refine ⟨rfl, fun b hb hvolunteer => Bool.eq_false_iff.mpr fun hlocks => ?_⟩
      have hwaits : u.waits c = true :=
        decide_eq_true ⟨hqueued, List.any_eq_true.mpr ⟨b, hb, decide_eq_true ⟨hvolunteer, hlocks⟩⟩⟩
      rw [hfree] at hwaits
      cases hwaits
  | written hsummed hprofiles hmilestones h => exact hu.written hc hsummed hprofiles hmilestones h
  | @awarded threshold rest hawarding hprofiles hmilestones hnew h =>
    have htotals : ∀ k bound, u.AtLeast k bound → v.AtLeast k bound :=
      fun k bound hbound => hbound.of_profiles hprofiles
    refine ⟨h.grows htotals, hu.advances h htotals (fun x hx => ?_) (fun a ha hac => ?_) ?_ ?_⟩
    · rw [hprofiles] at hx
      refine (hu.kept x hx).advances h (fun ⟨_, hstale⟩ => ?_)
        (fun threshold ⟨m, hm, hboth⟩ => ⟨m, hmilestones m hm, hboth⟩)
        fun threshold' ⟨hvolunteer, rest', hawarding', hmem⟩ => ?_
      · rw [hawarding] at hstale
        rcases hstale with hstale | hstale <;> cases hstale
      · obtain rfl := Progress.awarding.inj (hawarding.symm.trans hawarding')
        rcases List.mem_cons.mp hmem with rfl | hmem
        · exact .inl (hvolunteer ▸ hnew)
        · exact .inr ⟨_, List.mem_singleton_self _, hvolunteer, rest, rfl, hmem⟩
    · exact (backed_congr hprofiles h.logs).mpr
    · intro a ha
      obtain rfl := List.mem_singleton.mp ha
      have hbacked := hu.backed c hc
      unfold Backed at hbacked
      rw [hawarding] at hbacked
      exact fun threshold' hmem => hbacked threshold' (List.mem_cons_of_mem _ hmem)
    · intro a ha hlocks
      obtain rfl := List.mem_singleton.mp ha
      cases hlocks
  | finished hawarding hstore h =>
    have htotals : ∀ k bound, u.AtLeast k bound → v.AtLeast k bound :=
      fun k bound hbound => hbound.of_profiles (congrArg Store.profiles hstore)
    refine ⟨h.grows htotals, hu.advances h htotals (fun x hx => ?_) (fun a ha hac => ?_) ?_ ?_⟩
    · rw [hstore] at hx
      refine (hu.kept x hx).advances h (fun ⟨_, hstale⟩ => ?_) (fun threshold hdone => ?_)
        fun threshold ⟨_, rest, hawarding', hmem⟩ => ?_
      · rw [hawarding] at hstale
        rcases hstale with hstale | hstale <;> cases hstale
      · unfold Awarded
        rw [hstore]
        exact hdone
      · obtain rfl := Progress.awarding.inj (hawarding.symm.trans hawarding')
        cases hmem
    · exact (backed_congr (congrArg Store.profiles hstore) h.logs).mpr
    · exact fun a ha => absurd ha List.not_mem_nil
    · exact fun a ha => absurd ha List.not_mem_nil

/-- A callback of a sound ledger raises nothing. -/
theorem runCallback_returns (hu : u.Sound) (hc : c ∈ u.callbacks.rows) :
    ∃ v, runCallback c u = .ok ((), v) := by
  have hbacked := hu.backed c hc
  unfold Backed at hbacked
  unfold runCallback
  cases hprogress : c.progress with
  | queued =>
    rw [hprogress] at hbacked
    obtain ⟨x, hx, hpk, -⟩ := hbacked
    have hget : u.store.profiles.get c.volunteer = some x := Numbered.get_eq_some.mpr ⟨hx, hpk⟩
    have hfetch : zoom Ledger.storeLens (profileOf c.volunteer) u = .ok (x, u) :=
      zoom_ok.mpr ⟨u.store, fetch_of_get (ℓ := Store.profileTable) hget, rfl⟩
    exact ⟨_, bind_of_ok hfetch⟩
  | summed total => exact ⟨_, rfl⟩
  | awarding thresholds =>
    cases thresholds with
    | nil => exact ⟨_, rfl⟩
    | cons threshold rest =>
      rw [hprogress] at hbacked
      obtain ⟨t, ht⟩ := getOrCreateMilestone_returns (s := u.store) (k := c.volunteer)
        (hbacked threshold List.mem_cons_self)
      exact ⟨_, bind_of_ok (zoom_ok.mpr ⟨t, ht, rfl⟩)⟩

/-! ## Volunteers and logs are added -/

theorem mem_milestoneThresholds_pos (h : threshold ∈ milestoneThresholds) : 0 < threshold := by
  have hpos : ∀ threshold ∈ milestoneThresholds, 0 < threshold := by decide
  exact hpos threshold h

theorem Sound.registered {x : VolunteerProfile} (hu : u.Sound)
    (hrows : v.store.profiles.rows = u.store.profiles.rows ++ [x])
    (hpk : x.pk = u.store.profiles.next) (hzero : x.totalHoursApproved = 0)
    (hlogs : v.store.hoursLogs = u.store.hoursLogs)
    (hmilestones : v.store.milestones = u.store.milestones)
    (hcallbacks : v.callbacks = u.callbacks) (hdecided : v.decided = u.decided) :
    u.Grows v ∧ v.Sound := by
  have happroved (k : ℕ) : v.store.approvedHours k = u.store.approvedHours k := by
    unfold Store.approvedHours
    rw [hlogs]
  have htotals : ∀ k bound, u.AtLeast k bound → v.AtLeast k bound :=
    fun k bound ⟨y, hy, hboth⟩ => ⟨y, hrows ▸ List.mem_append_left _ hy, hboth⟩
  -- nothing refers to the new profile yet
  have hnone : ∀ l ∈ u.store.hoursLogs.rows, l.volunteer ≠ x.pk := by
    intro l hl heq
    obtain ⟨y, hy, hypk, -⟩ := hu.owners l hl
    have hused := u.store.profiles.used y hy
    have hypk : VolunteerProfile.schema.pk y = x.pk := hypk.trans heq
    omega
  refine ⟨⟨htotals, fun l hl => ⟨l, hlogs ▸ hl, rfl, rfl⟩⟩, ?_, fun y hy => ?_, fun c hc => ?_,
    hcallbacks ▸ hu.holder, hdecided ▸ hu.once, by rw [hdecided, hlogs]; exact hu.settled⟩
  · exact fun l hl => htotals _ _ (hu.owners l (hlogs ▸ hl))
  · rcases List.mem_append.mp (hrows ▸ hy) with hy | hy
    · obtain ⟨hbounded, hfresh, hawarded⟩ := hu.kept y hy
      refine ⟨happroved y.pk ▸ hbounded, ?_, ?_⟩
      · unfold Refreshes
        rw [happroved, hcallbacks]
        exact hfresh
      · unfold Awarded
        rw [hmilestones, hcallbacks]
        exact hawarded
    · obtain rfl := List.mem_singleton.mp hy
      have hsum : v.store.approvedHours y.pk = 0 :=
        (happroved y.pk).trans (approvedHours_of_none hnone)
      refine ⟨hzero ▸ Nat.zero_le _, .inl (hzero.trans hsum.symm), fun threshold hmem hle => ?_⟩
      have hpos := mem_milestoneThresholds_pos hmem
      rw [hzero] at hle
      exact absurd hpos (not_lt.mpr hle)
  · have hbacked := hu.backed c (hcallbacks ▸ hc)
    unfold Backed at hbacked ⊢
    cases hprogress : c.progress with
    | queued =>
      rw [hprogress] at hbacked
      exact htotals _ _ hbacked
    | summed total =>
      rw [hprogress] at hbacked
      obtain ⟨hold, htotal, hgrown⟩ := hbacked
      refine ⟨htotals _ _ hold, (happroved c.volunteer).symm ▸ htotal, fun y hy hypk => ?_⟩
      rcases List.mem_append.mp (hrows ▸ hy) with hy | hy
      · exact hgrown y hy hypk
      · obtain rfl := List.mem_singleton.mp hy
        exact hzero ▸ Nat.zero_le _
    | awarding thresholds =>
      rw [hprogress] at hbacked
      exact hbacked

theorem Sound.logged (hu : u.Sound) (hrows : v.store.hoursLogs.rows = u.store.hoursLogs.rows ++ [l])
    (hpending : l.status = .pending) (howner : u.AtLeast l.volunteer 0)
    (hprofiles : v.store.profiles = u.store.profiles)
    (hmilestones : v.store.milestones = u.store.milestones)
    (hcallbacks : v.callbacks = u.callbacks) (hdecided : v.decided = u.decided) :
    u.Grows v ∧ v.Sound := by
  have happroved (k : ℕ) : v.store.approvedHours k = u.store.approvedHours k :=
    approvedHours_logged hrows hpending
  have htotals : ∀ k bound, u.AtLeast k bound → v.AtLeast k bound :=
    fun k bound hbound => hbound.of_profiles hprofiles
  have hkeeps : ∀ a ∈ u.store.hoursLogs.rows, a ∈ v.store.hoursLogs.rows :=
    fun a ha => hrows ▸ List.mem_append_left _ ha
  refine ⟨⟨htotals, fun a ha => ⟨a, hkeeps a ha, rfl, rfl⟩⟩, fun a ha => ?_, fun x hx => ?_,
    fun c hc => ?_, hcallbacks ▸ hu.holder, hdecided ▸ hu.once, fun d hd => ?_⟩
  · rcases List.mem_append.mp (hrows ▸ ha) with ha | ha
    · exact htotals _ _ (hu.owners a ha)
    · obtain rfl := List.mem_singleton.mp ha
      exact htotals _ _ howner
  · obtain ⟨hbounded, hfresh, hawarded⟩ := hu.kept x (hprofiles ▸ hx)
    refine ⟨happroved x.pk ▸ hbounded, ?_, ?_⟩
    · unfold Refreshes
      rw [happroved, hcallbacks]
      exact hfresh
    · unfold Awarded
      rw [hmilestones, hcallbacks]
      exact hawarded
  · have hbacked := hu.backed c (hcallbacks ▸ hc)
    unfold Backed AtLeast at hbacked ⊢
    rw [hprofiles, happroved]
    exact hbacked
  · obtain ⟨hdecided', a, ha, hboth⟩ := hu.settled d (hdecided ▸ hd)
    exact ⟨hdecided', a, hkeeps a ha, hboth⟩

end Ledger

/-! ## Every block -/

theorem act_sound (hu : u.Sound) (hw : u.Held w) (h : w.act u () = some (v, w')) :
    u.Grows v ∧ v.Sound ∧ v.Held w' := by
  cases w with
  | called c =>
    simp only [HoursWorker.act] at h
    split at h <;> cases h <;> exact ⟨.refl u, hu, trivial⟩
  | checked c =>
    cases c with
    | approve log actor =>
      simp only [HoursWorker.act] at h
      cases hrun : readOldTotal log u.store with
      | error e =>
        rw [commit_of_error hrun] at h
        cases h
        exact ⟨.refl u, hu, trivial⟩
      | ok r =>
        rw [commit_of_ok (a := r.1) (t := r.2) hrun] at h
        cases h
        obtain ⟨l, hl, hpk, x, hx, hxpk, htotal⟩ := readOldTotal_ok hrun
        exact ⟨.refl u, hu, l, hl, hpk, x, hx, hxpk, htotal.ge⟩
    | reject log actor reason =>
      simp only [HoursWorker.act] at h
      cases hrun : commitRejection log reason u with
      | error e =>
        rw [commit_of_error hrun] at h
        cases h
        exact ⟨.refl u, hu, trivial⟩
      | ok r =>
        rw [commit_of_ok (a := r.1) (t := r.2) hrun] at h
        cases h
        obtain ⟨l, f, hdecides, hstatus, hcallbacks⟩ := commitRejection_ok hrun
        exact ⟨Ledger.grows_decided hdecides, hu.rejected hdecides hstatus hcallbacks, trivial⟩
  | holding log actor oldTotal =>
    simp only [HoursWorker.act] at h
    cases hrun : commitApproval log actor oldTotal u with
    | error e =>
      rw [commit_of_error hrun] at h
      cases h
      exact ⟨.refl u, hu, trivial⟩
    | ok r =>
      rw [commit_of_ok (a := r.1) (t := r.2) hrun] at h
      cases h
      obtain ⟨l, f, hpk, hdecides, -, hcallbacks⟩ := commitApproval_ok hrun
      obtain ⟨l', hl', hpk', hbound⟩ := hw
      obtain rfl : l' = l := Table.eq_of_pk hl' hdecides.mem (hpk'.trans hpk.symm)
      exact ⟨Ledger.grows_decided hdecides, hu.approved hdecides hbound hcallbacks, trivial⟩
  | returned => cases h
  | raised => cases h
  | dead => cases h

theorem insertProfile_ok {user : ℕ} {r : Unit} (h : insertProfile user s = .ok (r, t)) :
    ∃ T x, t = { s with profiles := T } ∧ T.rows = s.profiles.rows ++ [x] ∧
      x.pk = s.profiles.next ∧ x.totalHoursApproved = 0 := by
  obtain ⟨x, _, happend, ⟨⟩⟩ := bind_ok.mp h
  obtain ⟨rfl, T, hT, rfl⟩ := append_ok.mp happend
  exact ⟨T, _, rfl, Numbered.insert_rows hT fun _ => rfl, rfl, rfl⟩

theorem insertLog_ok {volunteer : ℕ} {opportunity shift : Option ℕ} {worked : Hundredths}
    {description : String} {r : Unit}
    (h : insertLog volunteer opportunity shift worked description s = .ok (r, t)) :
    ∃ T l, t = { s with hoursLogs := T } ∧ T.rows = s.hoursLogs.rows ++ [l] ∧
      l.status = .pending ∧ ∃ x ∈ s.profiles.rows, x.pk = l.volunteer := by
  obtain ⟨x, hget, h₁⟩ := fetch_bind.mp h
  obtain ⟨hx, -⟩ := Numbered.get_eq_some.mp hget
  obtain ⟨l, _, happend, ⟨⟩⟩ := bind_ok.mp h₁
  obtain ⟨rfl, T, hT, rfl⟩ := append_ok.mp happend
  exact ⟨T, _, rfl, Numbered.insert_rows hT fun _ => rfl, rfl, x, hx, rfl⟩

theorem env_sound {event : LedgerEvent} (hu : u.Sound)
    (h : hoursLedger.env u event = some v) : u.Grows v ∧ v.Sound := by
  cases event with
  | pass time =>
    obtain rfl := Option.some.inj h
    obtain ⟨howners, hkept, hbacked, hholder, honce, hsettled⟩ := hu
    exact ⟨⟨fun _ _ hbound => hbound, fun l hl => ⟨l, hl, rfl, rfl⟩⟩, howners,
      fun x hx => ⟨(hkept x hx).bounded, (hkept x hx).fresh, (hkept x hx).awarded⟩, hbacked,
      hholder, honce, hsettled⟩
  | register user =>
    obtain rfl := Option.some.inj h
    cases hrun : insertProfile user u.store with
    | error e =>
      rw [commit_of_error (zoom_error.mpr hrun)]
      exact ⟨.refl u, hu⟩
    | ok r =>
      rw [commit_of_ok (a := r.1) (zoom_ok.mpr ⟨r.2, hrun, rfl⟩)]
      obtain ⟨T, x, ht, hrows, hpk, hzero⟩ := insertProfile_ok (t := r.2) hrun
      rw [ht]
      exact hu.registered hrows hpk hzero rfl rfl rfl rfl
  | log volunteer opportunity shift worked description =>
    obtain rfl := Option.some.inj h
    cases hrun : insertLog volunteer opportunity shift worked description u.store with
    | error e =>
      rw [commit_of_error (zoom_error.mpr hrun)]
      exact ⟨.refl u, hu⟩
    | ok r =>
      rw [commit_of_ok (a := r.1) (zoom_ok.mpr ⟨r.2, hrun, rfl⟩)]
      obtain ⟨T, l, ht, hrows, hpending, x, hx, hpk⟩ := insertLog_ok (t := r.2) hrun
      rw [ht]
      exact hu.logged hrows hpending ⟨x, hx, hpk, Nat.zero_le _⟩ rfl rfl rfl rfl
  | callback pk =>
    obtain ⟨c, hget, h⟩ := Option.bind_eq_some_iff.mp h
    obtain ⟨hc, -⟩ := Numbered.get_eq_some.mp hget
    by_cases hwaits : u.waits c = true
    · rw [if_pos hwaits] at h
      cases h
    · rw [if_neg hwaits] at h
      obtain ⟨t, hrun⟩ := Ledger.runCallback_returns hu hc
      rw [commit_of_ok hrun] at h
      obtain rfl := Option.some.inj h
      exact hu.runs hc (by simpa using hwaits) (Ledger.runCallback_ok hc hrun)

theorem sound_of_init (h : hoursLedger.Init u) : u.Sound := by
  obtain ⟨hlogs, hprofiles, hmilestones, hcallbacks, hdecided⟩ := h
  refine ⟨fun l hl => ?_, fun x hx => ?_, fun c hc => ?_, fun a ha => ?_, ?_, fun d hd => ?_⟩
  · rw [hlogs] at hl
    cases hl
  · rw [hprofiles] at hx
    cases hx
  · rw [hcallbacks] at hc
    cases hc
  · rw [hcallbacks] at ha
    cases ha
  · rw [hdecided]
    exact List.nodup_nil
  · rw [hdecided] at hd
    cases hd

theorem sound_of_reachable {p : Pool.State Ledger HoursWorker}
    (h : hoursLedger.machine.Reachable p) : p.store.Sound := by
  refine (Program.invariant (I := Ledger.Sound) (J := Ledger.Held) (fun u => sound_of_init) ?_ ?_
    ?_ ?_ h).1
  · intro u w _ hentry
    cases w with
    | called => trivial
    | _ => cases hentry
  · exact fun _ _ => trivial
  · intro u w e v w' hu hw hact
    obtain ⟨hgrows, hv, hw'⟩ := act_sound hu hw hact
    exact ⟨hv, hw', fun q hq => hq.of_grows hgrows⟩
  · intro u event v hu henv
    obtain ⟨hgrows, hv⟩ := env_sound hu henv
    exact ⟨hv, fun q hq => hq.of_grows hgrows⟩

/-- The milestones of a volunteer for a threshold. -/
def Store.milestonesOf (s : Store) (volunteer : ℕ) (threshold : Hundredths) : ℕ :=
  s.milestones.rows.countP fun m => m.volunteer = volunteer ∧ m.hoursThreshold = threshold

/-- The index lets no volunteer have a milestone twice. -/
theorem milestonesOf_eq_one (h : u.Awarded k threshold) : u.store.milestonesOf k threshold = 1 := by
  have hcount := Table.countP_key (t := u.store.milestones.table)
    (i := RecognitionMilestone.volunteerThreshold) (List.mem_singleton_self _) (k, threshold)
    (p := fun m => m.volunteer = k ∧ m.hoursThreshold = threshold) fun m => by
      simp [RecognitionMilestone.volunteerThreshold]
  obtain ⟨m, hm, hboth⟩ := h
  refine hcount.trans (if_pos (List.any_eq_true.mpr ⟨m, hm, decide_eq_true hboth⟩))

/-- Every log is decided at most once, and while no callback is pending the total of every volunteer
is what is approved, with one milestone for each threshold up to it. -/
theorem hours_settled {p : Pool.State Ledger HoursWorker} (h : hoursLedger.machine.Reachable p) :
    (p.store.decided.map (·.1)).Nodup ∧
    (∀ d ∈ p.store.decided, d.2 ≠ .pending ∧
      ∃ l ∈ p.store.store.hoursLogs.rows, l.pk = d.1 ∧ l.status = d.2) ∧
    (p.store.callbacks.rows = [] → ∀ x ∈ p.store.store.profiles.rows,
      x.totalHoursApproved = p.store.store.approvedHours x.pk ∧
      ∀ threshold ∈ milestoneThresholds, threshold ≤ x.totalHoursApproved →
        p.store.store.milestonesOf x.pk threshold = 1) := by
  have hsound := sound_of_reachable h
  refine ⟨hsound.once, hsound.settled, fun hnone x hx => ?_⟩
  have hkept := hsound.kept x hx
  have hidle (q : Callback → Prop) : ¬ ∃ c ∈ p.store.callbacks.rows, q c := by
    simp [hnone]
  refine ⟨hkept.fresh.resolve_right (hidle _), fun threshold hmem hle => ?_⟩
  exact milestonesOf_eq_one ((hkept.awarded threshold hmem hle).resolve_right (hidle _))

/-- Two logs of a day each are approved, both from a total of zero, and both callbacks run. -/
def twoDays : Pool.State Ledger HoursWorker :=
  hoursLedger.machine.final ⟨{}, []⟩
    [.env (.register 7), .env (.log 1 none none (hours 24) ""),
      .env (.log 1 none none (hours 24) ""),
      .spawn (.called (.approve 1 ⟨9, false, false, true⟩)), .act 0 (), .act 0 (),
      .spawn (.called (.approve 2 ⟨9, false, false, true⟩)), .act 1 (), .act 1 (),
      .act 0 (), .act 1 (),
      .env (.callback 2), .env (.callback 2), .env (.callback 1), .env (.callback 1),
      .env (.callback 1), .env (.callback 2), .env (.callback 1), .env (.callback 2)]

theorem twoDays_settled : twoDays.store.decided = [(1, .approved), (2, .approved)] ∧
    ∃ x ∈ twoDays.store.store.profiles.rows, x.totalHoursApproved = hours 48 ∧
      twoDays.store.store.milestonesOf x.pk (hours 25) = 1 := by
  have hsettled := (hours_settled (p := twoDays) (Machine.Reachable.final (M := hoursLedger.machine)
    (s := ⟨{}, []⟩) ⟨⟨rfl, rfl, rfl, rfl, rfl⟩, rfl⟩ _)).2.2
  have hx : (⟨1, 7, hours 48⟩ : VolunteerProfile) ∈ twoDays.store.store.profiles.rows := by
    decide +kernel
  exact ⟨by decide +kernel, _, hx, rfl,
    (hsettled (by decide +kernel) _ hx).2 _ (by decide) (by decide)⟩

end Civicos.Volunteers
