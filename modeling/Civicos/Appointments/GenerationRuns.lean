import Civicos.Appointments.Requests
import Civicos.Appointments.SlotGrid
import Mathlib.Data.List.Sort

/-!
# Slot generation

The candidates of a range of dates are collected date by date, each time against the slots that are
stored then, and all of them are inserted at the end.

A relation between the plans of two slots that no run brings about: the generations keep their
candidates apart from each other and from what is stored, as long as nobody inserts rival slots
between their queries and their insertion.
-/
namespace Civicos.Appointments

open Library
open Payments (Uuid)

/-- The arguments of `generate_slots_for_range` -/
structure Generation where
  appointmentType : AppointmentType
  staff : ℕ
  dateFrom : ℤ
  dateTo : ℤ
deriving DecidableEq, Repr

def Generation.query (g : Generation) : Query where
  appointmentType := g.appointmentType
  dateFrom := g.dateFrom
  dateTo := g.dateTo
  staff := some g.staff

/-! ## Insertion -/

namespace Schedule

def slot (h : Schedule) (c : Candidate) (pk : Uuid) : Slot where
  pk
  appointmentType := h.appointmentType.pk
  staff := h.staff
  location := c.locationId
  startDatetime := c.startDatetime
  endDatetime := c.endDatetime
  effectiveStart := c.effectiveStart
  effectiveEnd := c.effectiveEnd
  capacity := h.appointmentType.capacityPerSlot

/-- `bulk_create`; no constraint compares slots with each other, so there are no conflicts to
ignore. -/
def bulkCreate (h : Schedule) : List Candidate → Table Slot.schema →
    Except Violation (Table Slot.schema)
  | [], t => .ok t
  | c :: cs, t =>
    match t.insert (h.slot c t.next) with
    | .ok t => h.bulkCreate cs t
    | .error v => .error v

/-- In the order of their start; the sort is stable. -/
def persist (h : Schedule) (found : List Candidate) (t : Table Slot.schema) :
    Except Violation (Table Slot.schema) :=
  h.bulkCreate (found.insertionSort fun c d => c.startDatetime ≤ d.startDatetime) t

end Schedule

/-! ## The office -/

/-- Requests of the booking system, and generations. Other transactions may commit between the
queries of two dates, and before the insertion. -/
inductive Desk where
  | task (t : Task)
  | generate (g : Generation)
  | scanning (h : Schedule) (todo : List ℤ) (found : List Candidate)
  | persisting (h : Schedule) (found : List Candidate)
  | generated (created : ℕ)
  | failed (v : Violation)

/-- The next block of a generation. At most one staff member is eligible, the one with the given
key; the settings are those that the validators of the models accept. -/
def Desk.generation (o : Office) (now : Instant) : Desk → Option (Office × Desk)
  | generate g =>
    match (o.schedules g.query now).head? with
    | none => some (o, generated 0)
    | some h =>
      if h.appointmentType.isValid ∧ h.policy.isValid then
        some (o, scanning h g.query.dates [])
      else
        none
  | scanning h (date :: todo) found =>
    (h.daySlots o.agenda o.slots date).map fun results => (o, scanning h todo (found ++ results))
  | scanning _ [] [] => some (o, generated 0)
  | scanning h [] found => some (o, persisting h found)
  | persisting h found =>
    match h.persist found o.appointments.slots with
    | .ok slots =>
      some ({ o with appointments := { o.appointments with slots } }, generated found.length)
    | .error v => some (o, failed v)
  | _ => none

inductive OfficeChange where
  | configure (catalog : Catalog)
  | plan (agenda : Agenda)
  | move (zones : ℕ → TimeZone)

/-- Generations beside the requests that `allows` names. There are no slots at first. -/
def office (allows : Request → Bool) : Program Office Desk Instant OfficeChange where
  Init o := o.appointments.Initial ∧ o.slots = []
  entry
    | .task (.call r none) => allows r
    | .generate _ => true
    | _ => false
  halted := .generated 0
  act o p now :=
    match p with
    | .task t =>
      (system.act o.appointments t now).map fun r => ({ o with appointments := r.1 }, .task r.2)
    | p => p.generation o now
  env o
    | .configure catalog => some { o with appointments := { o.appointments with catalog } }
    | .plan agenda => some { o with agenda }
    | .move zones => some { o with zones }

end Civicos.Appointments

/-! ## Runs of slot generation -/

namespace Civicos.Appointments

open Library
open Payments (Uuid)

/-! ## Plans -/

/-- The columns of a slot that no booking changes -/
structure Plan where
  appointmentType : ℕ
  staff : ℕ
  startDatetime : Instant
  endDatetime : Instant
  effectiveStart : Instant
  effectiveEnd : Instant
deriving DecidableEq, Repr

def Slot.plan (x : Slot) : Plan where
  appointmentType := x.appointmentType
  staff := x.staff
  startDatetime := x.startDatetime
  endDatetime := x.endDatetime
  effectiveStart := x.effectiveStart
  effectiveEnd := x.effectiveEnd

namespace Schedule

variable {h : Schedule} {cs found : List Candidate} {c : Candidate} {t t' : Table Slot.schema}
  {a : Agenda} {slots : List Slot} {date : ℤ} {w : Instant × Instant} {pks : List Uuid}

def plan (h : Schedule) (c : Candidate) : Plan where
  appointmentType := h.appointmentType.pk
  staff := h.staff
  startDatetime := c.startDatetime
  endDatetime := c.endDatetime
  effectiveStart := c.effectiveStart
  effectiveEnd := c.effectiveEnd

/-- A point of the grid of a window, with room for the slot and its buffer -/
structure Located (h : Schedule) (w : Instant × Instant) (c : Candidate) : Prop where
  grid : ∃ k : ℕ, c = h.candidate (w.1 + k * h.stride)
  room : c.effectiveEnd ≤ w.2

/-! ## What a date finds -/

theorem located_of_daySlots (hpolicy : h.policy.isValid = true)
    (hday : h.daySlots a slots date = some cs) (hc : c ∈ cs) :
    ∃ w ∈ h.windows a date, h.Located w c := by
  obtain ⟨-, w, hw, hoffered⟩ := (mem_daySlots hpolicy hday).mp hc
  exact ⟨w, hw, hoffered.grid, hoffered.room⟩

/-- A busy slot of the staff member around the date does not overlap a candidate. -/
theorem free_of_daySlots (hpolicy : h.policy.isValid = true)
    (hday : h.daySlots a slots date = some cs) (hc : c ∈ cs) {x : Slot} (hx : x ∈ slots)
    (hstaff : x.staff = h.staff) (hbusy : x.isBusy = true)
    (hbefore : x.effectiveStart < h.dayEnd date + h.maxBuffer)
    (hafter : h.dayStart date - h.maxBuffer < x.effectiveEnd) :
    overlaps c.effectiveStart c.effectiveEnd x.effectiveStart x.effectiveEnd = false := by
  obtain ⟨-, w, -, hoffered⟩ := (mem_daySlots hpolicy hday).mp hc
  refine hoffered.free (x.effectiveStart, x.effectiveEnd) ?_
  exact List.mem_map.mpr ⟨x, List.mem_filter.mpr ⟨hx, by simp [*]⟩, rfl⟩

/-! ## What an insertion leaves -/

/-- One new row for each candidate, in their order -/
theorem bulkCreate_ok (hcreate : h.bulkCreate cs t = .ok t') :
    ∃ pks : List Uuid, pks.length = cs.length ∧
      t'.rows = t.rows ++ List.zipWith h.slot cs pks := by
  induction cs generalizing t with
  | nil =>
    cases hcreate
    exact ⟨[], rfl, (List.append_nil _).symm⟩
  | cons c cs ih =>
    unfold bulkCreate at hcreate
    cases hinsert : t.insert (h.slot c t.next) with
    | error v =>
      rw [hinsert] at hcreate
      cases hcreate
    | ok u =>
      rw [hinsert] at hcreate
      obtain ⟨pks, hlength, hrows⟩ := ih hcreate
      refine ⟨t.next :: pks, by simp [hlength], ?_⟩
      rw [hrows, (Table.insert_ok.mp hinsert).2, List.append_assoc]
      rfl

theorem persist_ok (hpersist : h.persist found t = .ok t') :
    ∃ (cs : List Candidate) (pks : List Uuid), cs.Perm found ∧ pks.length = cs.length ∧
      t'.rows = t.rows ++ List.zipWith h.slot cs pks := by
  obtain ⟨pks, hlength, hrows⟩ := bulkCreate_ok hpersist
  exact ⟨_, pks, List.perm_insertionSort _ _, hlength, hrows⟩

theorem map_plan_zipWith (hlength : pks.length = cs.length) :
    (List.zipWith h.slot cs pks).map Slot.plan = cs.map h.plan := by
  induction cs generalizing pks with
  | nil => rfl
  | cons c cs ih =>
    cases pks with
    | nil => cases hlength
    | cons pk pks =>
      simp only [List.zipWith_cons_cons, List.map_cons]
      rw [ih (Nat.succ.inj hlength)]
      rfl

theorem exists_slot (hlength : pks.length = cs.length) (hc : c ∈ cs) :
    ∃ pk, h.slot c pk ∈ List.zipWith h.slot cs pks := by
  obtain ⟨i, hi, rfl⟩ := List.mem_iff_getElem.mp hc
  refine ⟨pks[i], List.mem_iff_getElem.mpr ⟨i, ?_, ?_⟩⟩
  · simp only [List.length_zipWith]
    omega
  · exact List.getElem_zipWith

theorem of_mem_slots {x : Slot} (hx : x ∈ List.zipWith h.slot cs pks) :
    ∃ c pk, x = h.slot c pk := by
  obtain ⟨i, hi, rfl⟩ := List.mem_iff_getElem.mp hx
  exact ⟨_, _, List.getElem_zipWith⟩

end Schedule

theorem Query.dates_pairwise {q : Query} : q.dates.Pairwise (· < ·) := by
  refine List.pairwise_map.mpr (List.pairwise_lt_range.imp fun hlt => ?_)
  omega

/-! ## Keeping apart -/

/-- A relation between plans that generations keep out of the table: the candidates of two
generations that are no rivals are not related, nor are those of one generation, to each other or to
what is stored, as long as it is `ready` for its next date. `placed` is where the windows of a date
are then, and `stored` is an invariant of the rows. -/
structure Discipline (allows : Request → Bool) where
  clash : Plan → Plan → Prop
  rivals : Schedule → Schedule → Bool
  placed : Schedule → ℤ → Instant × Instant → Prop
  ready : Agenda → List Slot → Schedule → ℤ → Prop
  stored : List Slot → Prop
  symm : ∀ {p q}, clash p q → clash q p
  apart : ∀ {h h' : Schedule} {c c' : Candidate}, rivals h h' = false →
    ¬ clash (h.plan c) (h'.plan c')
  placed_of_ready : ∀ {a : Agenda} {slots : List Slot} {h : Schedule} {date : ℤ},
    ready a slots h date → ∀ w ∈ h.windows a date, placed h date w
  days : ∀ {h : Schedule} {d e : ℤ} {w w' : Instant × Instant} {c c' : Candidate},
    h.appointmentType.isValid = true → d < e → placed h d w → placed h e w' → h.Located w c →
      h.Located w' c' → ¬ clash (h.plan c) (h.plan c')
  day : ∀ {a : Agenda} {slots : List Slot} {h : Schedule} {date : ℤ} {cs : List Candidate},
    h.appointmentType.isValid = true → h.policy.isValid = true → ready a slots h date →
      h.daySlots a slots date = some cs → (cs.map h.plan).Pairwise fun p q => ¬ clash p q
  free : ∀ {a : Agenda} {slots : List Slot} {h : Schedule} {date : ℤ} {cs : List Candidate},
    h.appointmentType.isValid = true → h.policy.isValid = true →
      (∀ x ∈ slots, Slot.schema.Valid x) → stored slots → ready a slots h date →
        h.daySlots a slots date = some cs → ∀ c ∈ cs, ∀ x ∈ slots, ¬ clash x.plan (h.plan c)
  empty : stored []
  inserted : ∀ {slots : List Slot} {h : Schedule} {cs : List Candidate} {pks : List Uuid},
    stored slots → stored (slots ++ List.zipWith h.slot cs pks)
  requests : ∀ {r : Request} {seen s t : Store} {now : Instant}, allows r = true →
    r.perform seen now s = .ok ((), t) →
      t.slots.rows.map Slot.plan = s.slots.rows.map Slot.plan ∧
        (stored s.slots.rows → stored t.slots.rows)

/-- A generation that has begun to query and has not inserted anything yet -/
def Desk.underWay : Desk → Option Schedule
  | .scanning h _ _ | .persisting h _ => some h
  | _ => none

namespace Discipline

variable {allows : Request → Bool}

def Admits (D : Discipline allows) (s : Pool.State Office Desk) (i : ℕ) : Desk → Prop
  | .scanning h (date :: _) _ => D.ready s.store.agenda s.store.slots h date
  | .persisting h _ => ∀ q ∈ s.workers.eraseIdx i, ∀ h' ∈ q.underWay, D.rivals h h' = false
  | _ => True

/-- A generation is ready for each of its dates, and no rival is under way when it inserts. -/
def Holds (D : Discipline allows) (s : Pool.State Office Desk) :
    Pool.Label Desk Instant OfficeChange → Prop
  | .act i _ => ∀ p ∈ s.workers[i]?, D.Admits s i p
  | _ => True

variable (D : Discipline allows)

instance [∀ a slots h date, Decidable (D.ready a slots h date)] (s : Pool.State Office Desk)
    (i : ℕ) : (p : Desk) → Decidable (D.Admits s i p)
  | .scanning h (date :: _) _ => inferInstanceAs
    (Decidable (D.ready s.store.agenda s.store.slots h date))
  | .persisting h _ => inferInstanceAs
    (Decidable (∀ q ∈ s.workers.eraseIdx i, ∀ h' ∈ q.underWay, D.rivals h h' = false))
  | .generate _ | .scanning _ [] _ | .task _ | .generated _ | .failed _ =>
    inferInstanceAs (Decidable True)

instance [∀ a slots h date, Decidable (D.ready a slots h date)] (s : Pool.State Office Desk) :
    (l : Pool.Label Desk Instant OfficeChange) → Decidable (D.Holds s l)
  | .act i _ => inferInstanceAs (Decidable (∀ p ∈ s.workers[i]?, D.Admits s i p))
  | .spawn _ | .die _ | .env _ => inferInstanceAs (Decidable True)

/-! ## Workers -/

/-- A request that is allowed, at its beginning, before its transaction or at its end -/
def Admitted (allows : Request → Bool) : Task → Prop
  | .call r none | .running r _ none => allows r = true
  | .done _ => True
  | _ => False

/-- What a generation has gathered -/
structure Gathered (rows : List Slot) (h : Schedule) (todo : List ℤ)
    (found : List Candidate) : Prop where
  typeValid : h.appointmentType.isValid = true
  policyValid : h.policy.isValid = true
  dates : todo.Pairwise (· < ·)
  earlier : ∀ c ∈ found, ∃ d, (∀ e ∈ todo, d < e) ∧ ∃ w, D.placed h d w ∧ h.Located w c
  own : (found.map h.plan).Pairwise fun p q => ¬ D.clash p q
  free : ∀ c ∈ found, ∀ q ∈ rows.map Slot.plan, ¬ D.clash q (h.plan c)

def Keeps (rows : List Slot) : Desk → Prop
  | .task t => Admitted allows t
  | .scanning h todo found => D.Gathered rows h todo found
  | .persisting h found => D.Gathered rows h [] found
  | _ => True

/-- No two stored plans are related. -/
structure Kept (rows : List Slot) : Prop where
  stored : D.stored rows
  plans : (rows.map Slot.plan).Pairwise fun p q => ¬ D.clash p q

variable {D} {rows rows' : List Slot} {h h' : Schedule} {todo : List ℤ} {date : ℤ}
  {found results : List Candidate} {p q : Desk} {t t' : Task} {o o' : Office} {now : Instant}

theorem Gathered.start {q : Query} (htype : h.appointmentType.isValid = true)
    (hpolicy : h.policy.isValid = true) : D.Gathered rows h q.dates [] where
  typeValid := htype
  policyValid := hpolicy
  dates := Query.dates_pairwise
  earlier := nofun
  own := .nil
  free := nofun

theorem Gathered.day {a : Agenda} (hg : D.Gathered rows h (date :: todo) found)
    (hvalid : ∀ x ∈ rows, Slot.schema.Valid x) (hstored : D.stored rows)
    (hready : D.ready a rows h date) (hday : h.daySlots a rows date = some results) :
    D.Gathered rows h todo (found ++ results) := by
  obtain ⟨hlater, hdates⟩ := List.pairwise_cons.mp hg.dates
  have hlocated {c : Candidate} (hc : c ∈ results) : ∃ w, D.placed h date w ∧ h.Located w c := by
    obtain ⟨w, hw, hlocated⟩ := Schedule.located_of_daySlots hg.policyValid hday hc
    exact ⟨w, D.placed_of_ready hready w hw, hlocated⟩
  refine ⟨hg.typeValid, hg.policyValid, hdates, fun c hc => ?_, ?_, fun c hc q hq => ?_⟩
  · rcases List.mem_append.mp hc with hc | hc
    · obtain ⟨d, hd, hw⟩ := hg.earlier c hc
      exact ⟨d, fun e he => hd e (List.mem_cons_of_mem _ he), hw⟩
    · exact ⟨date, hlater, hlocated hc⟩
  · rw [List.map_append]
    refine List.pairwise_append.mpr
      ⟨hg.own, D.day hg.typeValid hg.policyValid hready hday, fun q hq q' hq' => ?_⟩
    obtain ⟨c, hc, rfl⟩ := List.mem_map.mp hq
    obtain ⟨c', hc', rfl⟩ := List.mem_map.mp hq'
    obtain ⟨d, hd, w, hw, hfirst⟩ := hg.earlier c hc
    obtain ⟨w', hw', hsecond⟩ := hlocated hc'
    exact D.days hg.typeValid (hd date List.mem_cons_self) hw hw' hfirst hsecond
  · rcases List.mem_append.mp hc with hc | hc
    · exact hg.free c hc q hq
    · obtain ⟨x, hx, rfl⟩ := List.mem_map.mp hq
      exact D.free hg.typeValid hg.policyValid hvalid hstored hready hday c hc x hx

theorem Keeps.frame (hplans : rows'.map Slot.plan = rows.map Slot.plan) (hp : D.Keeps rows p) :
    D.Keeps rows' p := by
  cases p with
  | scanning h todo found => exact { hp with free := hplans ▸ hp.free }
  | persisting h found => exact { hp with free := hplans ▸ hp.free }
  | task t => exact hp
  | _ => trivial

/-- Candidates of a generation are inserted that is no rival of the worker's. -/
theorem Keeps.insert (hp : D.Keeps rows p)
    (hplans : ∀ q ∈ rows'.map Slot.plan, q ∈ rows.map Slot.plan ∨ ∃ c, q = h.plan c)
    (hrivals : ∀ h' ∈ p.underWay, D.rivals h h' = false) : D.Keeps rows' p := by
  have hfree {h' : Schedule} {found : List Candidate} (hh' : D.rivals h h' = false)
      (hfree : ∀ c ∈ found, ∀ q ∈ rows.map Slot.plan, ¬ D.clash q (h'.plan c)) :
      ∀ c ∈ found, ∀ q ∈ rows'.map Slot.plan, ¬ D.clash q (h'.plan c) := by
    intro c hc q hq
    rcases hplans q hq with hq | ⟨c', rfl⟩
    · exact hfree c hc q hq
    · exact D.apart hh'
  cases p with
  | scanning h' todo found => exact { hp with free := hfree (hrivals h' rfl) hp.free }
  | persisting h' found => exact { hp with free := hfree (hrivals h' rfl) hp.free }
  | task t => exact hp
  | _ => trivial

/-! ## Blocks -/

/-- What is gathered is inserted. -/
theorem Gathered.persist {t t' : Table Slot.schema} (hg : D.Gathered t.rows h [] found)
    (hkept : D.Kept t.rows) (hpersist : h.persist found t = .ok t') :
    D.Kept t'.rows ∧ ∀ q ∈ t'.rows.map Slot.plan,
      q ∈ t.rows.map Slot.plan ∨ ∃ c, q = h.plan c := by
  obtain ⟨cs, pks, hperm, hlength, hrows⟩ := Schedule.persist_ok hpersist
  have hplans : t'.rows.map Slot.plan = t.rows.map Slot.plan ++ cs.map h.plan := by
    rw [hrows, List.map_append, Schedule.map_plan_zipWith hlength]
  refine ⟨⟨hrows ▸ D.inserted hkept.stored, ?_⟩, fun q hq => ?_⟩
  · rw [hplans]
    refine List.pairwise_append.mpr ⟨hkept.plans, ?_, fun q hq q' hq' => ?_⟩
    · have hsymm {a b : Plan} (hab : ¬ D.clash a b) : ¬ D.clash b a := fun hba => hab (D.symm hba)
      exact ((hperm.map h.plan).pairwise_iff hsymm).mpr hg.own
    · obtain ⟨c, hc, rfl⟩ := List.mem_map.mp hq'
      exact hg.free c (hperm.mem_iff.mp hc) q hq
  · rw [hplans] at hq
    refine (List.mem_append.mp hq).imp_right fun hq => ?_
    obtain ⟨c, -, rfl⟩ := List.mem_map.mp hq
    exact ⟨c, rfl⟩

theorem admitted_act {db db' : Store} (hact : system.act db t now = some (db', t'))
    (ht : Admitted allows t) : Admitted allows t' := by
  simp only [system, Option.ite_none_right_eq_some] at hact
  obtain ⟨-, hact⟩ := hact
  cases t with
  | call r job =>
    cases hact
    cases job with
    | none => exact ht
    | some job => cases ht
  | running r seen job =>
    cases job with
    | none =>
      cases hact
      trivial
    | some job => cases ht
  | sweep => cases ht
  | sweeping job => cases ht
  | done answer => cases hact

/-- The transaction of a request that is allowed, or none -/
theorem kept_act {db db' : Store} (hact : system.act db t now = some (db', t'))
    (ht : Admitted allows t) (hkept : D.Kept db.slots.rows) :
    D.Kept db'.slots.rows ∧ db'.slots.rows.map Slot.plan = db.slots.rows.map Slot.plan := by
  obtain ⟨-, rfl | ⟨r, seen, job, rfl, hr⟩⟩ := act_store hact
  · exact ⟨hkept, rfl⟩
  · have hallows : allows r = true := by
      cases job with
      | none => exact ht
      | some job => cases ht
    obtain ⟨hplans, hstored⟩ := D.requests hallows hr
    exact ⟨⟨hstored hkept.stored, hplans ▸ hkept.plans⟩, hplans⟩

/-- What the next block of a worker does to the slots -/
theorem act_keeps {s : Pool.State Office Desk} {i : ℕ} (hadmits : D.Admits s i p)
    (hkept : D.Kept s.store.slots) (hp : D.Keeps s.store.slots p)
    (hact : (office allows).act s.store p now = some (o', q)) :
    D.Kept o'.slots ∧ D.Keeps o'.slots q ∧
      (o'.slots.map Slot.plan = s.store.slots.map Slot.plan ∨
        ∃ h found, p = .persisting h found ∧ ∀ q ∈ o'.slots.map Slot.plan,
          q ∈ s.store.slots.map Slot.plan ∨ ∃ c, q = h.plan c) := by
  cases p with
  | task t =>
    obtain ⟨⟨db, t'⟩, hdb, h⟩ := Option.map_eq_some_iff.mp hact
    cases h
    obtain ⟨hkept', hplans⟩ := kept_act hdb hp hkept
    exact ⟨hkept', admitted_act hdb hp, .inl hplans⟩
  | generate g =>
    simp only [office, Desk.generation] at hact
    split at hact
    · cases hact
      exact ⟨hkept, trivial, .inl rfl⟩
    next h hschedule =>
      split at hact
      next hvalid =>
        cases hact
        exact ⟨hkept, .start hvalid.1 hvalid.2, .inl rfl⟩
      · cases hact
  | scanning h todo found =>
    cases todo with
    | cons date todo =>
      obtain ⟨results, hday, hx⟩ := Option.map_eq_some_iff.mp hact
      cases hx
      refine ⟨hkept, ?_, .inl rfl⟩
      exact Gathered.day hp (fun x hx => s.store.appointments.slots.valid x hx) hkept.stored hadmits
        hday
    | nil =>
      cases found with
      | nil =>
        cases hact
        exact ⟨hkept, trivial, .inl rfl⟩
      | cons c cs =>
        cases hact
        exact ⟨hkept, hp, .inl rfl⟩
  | persisting h found =>
    simp only [office, Desk.generation] at hact
    split at hact
    next slots hpersist =>
      cases hact
      obtain ⟨hkept', hplans⟩ := Gathered.persist hp hkept hpersist
      exact ⟨hkept', trivial, .inr ⟨h, found, rfl, hplans⟩⟩
    · cases hact
      exact ⟨hkept, trivial, .inl rfl⟩
  | generated created => cases hact
  | failed v => cases hact

/-! ## Runs -/

theorem kept_of_reachable [∀ a slots h date, Decidable (D.ready a slots h date)]
    {s : Pool.State Office Desk}
    (h : ((office allows).machine.under D.Holds).Reachable s) :
    D.Kept s.store.slots ∧ ∀ p ∈ s.workers, D.Keeps s.store.slots p := by
  refine Program.invariant_under (I := fun o => D.Kept o.slots)
    (J := fun o p => D.Keeps o.slots p) ?_ ?_ ?_ ?_ ?_ h
  · rintro o ⟨-, hempty⟩
    rw [hempty]
    exact ⟨D.empty, .nil⟩
  · rintro o p - hp
    cases p with
    | task t =>
      cases t with
      | call r job =>
        cases job with
        | none => exact hp
        | some job => cases hp
      | _ => cases hp
    | generate g => trivial
    | _ => cases hp
  · exact fun _ _ => trivial
  · rintro s i p now o' q hholds hkept hworkers hp hact
    obtain ⟨hkept', hq, hplans⟩ :=
      act_keeps (hholds p hp) hkept (hworkers p (List.mem_of_getElem? hp)) hact
    refine ⟨hkept', hq, fun j r hj hr => ?_⟩
    have hr' := hworkers r (List.mem_of_getElem? hr)
    rcases hplans with hplans | ⟨h, found, rfl, hplans⟩
    · exact hr'.frame hplans
    · exact hr'.insert hplans (hholds _ hp r (List.mem_eraseIdx_iff_getElem?.mpr ⟨j, hj, hr⟩))
  · rintro s x o' - hkept hworkers henv
    cases x with
    | configure catalog =>
      cases henv
      exact ⟨hkept, hworkers⟩
    | plan agenda =>
      cases henv
      exact ⟨hkept, hworkers⟩
    | move zones =>
      cases henv
      exact ⟨hkept, hworkers⟩

end Discipline

end Civicos.Appointments
