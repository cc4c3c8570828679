import Civicos.Documents.Steps

/-!
# What a worker does next

A worker carries what it has read from one block to the next. Each case names the block before, the
block after, and what has been read in between.
-/
namespace Civicos.Documents

open Library Library.Transaction
open Payments (strip)

variable {cfg : Settings} {e : Choice} {s t : Store} {p q : Worker}

inductive Next (cfg : Settings) (e : Choice) (s t : Store) : Worker → Worker → Prop
  | returned {p : Worker} : Next cfg e s t p .returned
  | raised {p : Worker} {x : DocumentError} : Next cfg e s t p (.raised x)
  | deleting {document : ℕ} {user : Actor} {reason : String} {d : Document} :
      Next cfg e s t (.deleting document user reason)
        (.calling (.softDelete d (some user.pk) (strip reason)))
  | disposal : Next cfg e s t .disposal (.disposing [] (s.pendingDisposal cfg))
  | disposed {d : Document} {batch : List Document} {pks : List ℕ} :
      Next cfg e s t (.disposing (d :: batch) pks) (.disposing batch pks)
  | disposing {pks : List ℕ} :
      Next cfg e s t (.disposing [] pks) (.disposing (s.nextChunk pks).1 (s.nextChunk pks).2)
  | purge : Next cfg e s t .purge (.purging [] s.pendingHardDelete)
  | purging {p : Worker} {batch : List Document} {pks : List ℕ} :
      Next cfg e s t p (.purging batch pks)
  | captured {p : Worker} {d : Document} {job : Job} (hd : d ∈ s.documents.rows)
      (hstatus : d.scanStatus = .deleted) : Next cfg e s t p (.clearing d.pk d.storageKey job)
  | cleared {document : ℕ} {key : Option Key} {job : Job} :
      Next cfg e s t (.clearing document key job) (.cleared document s.now job)
  | announced {user : Actor} {categorySlug : String} {file : FileRequest} {d : Document}
      (hrun : announceUpload cfg user categorySlug file e.token s = .ok (d, t)) :
      Next cfg e s t (.uploading user categorySlug file) (.presigning d none)
  | loaded {user : Actor} {file : FileRequest} {description : String} {d : Document}
      (hd : d ∈ s.documents.rows) (hs : t = s) :
      Next cfg e s t (.loading user d.pk file description) (.versioning user d file description)
  | versioned {user : Actor} {document new previous : Document} {file : FileRequest}
      {description : String}
      (hrun : announceVersion cfg e user document file description s = .ok ((new, previous), t)) :
      Next cfg e s t (.versioning user document file description)
        (.presigning new (some previous.pk))
  | unsigned {new : Document} {previous : Option ℕ} :
      Next cfg e s t (.presigning new previous) (.withdrawing new.pk previous)
  | claimed {d : Document} (hd : d ∈ s.documents.rows) (hstatus : d.scanStatus = .scanning) :
      Next cfg e s t (.scanning d.pk) (.claimed d.pk d.storageKey)
  | retried {p : Worker} {document : ℕ} : Next cfg e s t p (.scanning document)
  | exhausted {p : Worker} {document : ℕ} {exception : String} :
      Next cfg e s t p (.failing document exception)
  | unread {document : ℕ} {key : Option Key} : Next cfg e s t (.claimed document key)
      (.scanned document none "STORAGE_ERROR:_StorageReadError")
  | scanned {document : ℕ} {k : Key} {content : Content} {result : String}
      (hobject : s.objects k = some content) (hs : t = s) :
      Next cfg e s t (.claimed document (some k)) (.scanned document (some content) result)
  | decided {d : Document} {content : Option Content} {result : String} {k : Key}
      (hd : d ∈ s.documents.rows) (hkey : d.storageKey = some k)
      (hverdict : ∀ a ∈ t.documents.rows, a.pk = d.pk →
        a.scanStatus = .active ∨ a.scanStatus = .quarantined) :
      Next cfg e s t (.scanned d.pk content result) (.sweeping (some k))
  | cleanup (hs : t = s) :
      Next cfg e s t .cleanup (Worker.nextStale (s.stalePending cfg) (s.stalePending cfg))
  | swept {stale rest : List (ℕ × Option Key)} {k : Key} {keys : List Key} {chunk : List ℕ} :
      Next cfg e s t (.cleaning stale (k :: keys) chunk rest) (.cleaning stale keys chunk rest)
  | collected {stale rest : List (ℕ × Option Key)} {chunk pks : List ℕ}
      (hrun : collectStale chunk s = .ok (pks, t)) :
      Next cfg e s t (.cleaning stale [] chunk rest) (.collected stale pks rest)
  | deleted {stale rest : List (ℕ × Option Key)} {pks : List ℕ}
      (hrun : deleteCollected pks s = .ok ((), t)) :
      Next cfg e s t (.collected stale pks rest) (Worker.nextStale stale rest)
  | redeeming {token user : ℕ} {a : AccessToken} {d : Document}
      (hrun : readToken token user s = .ok ((a, d), s)) (hs : t = s) :
      Next cfg e s t (.redeeming token user) (.redemption a.pk user s.now d)

theorem retry_next {document : ℕ} {exception : String} :
    Next cfg e s t p (Worker.retry e document exception) := by
  unfold Worker.retry
  split
  · exact .exhausted
  · exact .retried

theorem resume_next {job : Job} : Next cfg e s t p (Worker.resume job) := by
  cases job
  · exact .returned
  · exact .purging

theorem hardDelete_next {document : Document} {key : Option Key} {job : Job}
    (h : hardDelete cfg document s = .ok (some key, t)) :
    Next cfg e s t p (.clearing document.pk key job) := by
  obtain ⟨d, hd, hpk, -, hstatus, rfl⟩ := (hardDelete_ok h).2 key rfl
  exact hpk ▸ .captured hd hstatus

theorem saved_row {d a : Document} {f : Document → DocumentState} {audited : Bool}
    {entry : AuditEntry} (hd : d ∈ s.documents.rows)
    (ha : a ∈ ((s.save d.pk f).log audited entry).documents.rows) (hpk : a.pk = d.pk) :
    a = d.withState f := by
  rw [Store.documents_log, Store.mem_save hd] at ha
  rcases ha with ⟨-, hne⟩ | rfl
  · exact absurd hpk hne
  · rfl

theorem act_next (h : p.act cfg s e = some (t, q)) : Next cfg e s t p q := by
  cases p with
  | calling | withdrawing | failing | redemption | sweeping =>
    simp only [Worker.act] at h
    first
      | (split at h <;> cases h <;> first | exact .returned | exact .raised)
      | (cases h; first | exact .returned | exact .raised)
  | deleting =>
    simp only [Worker.act] at h
    split at h <;> cases h
    next => exact .deleting
    next => exact .raised
  | disposal => cases h; exact .disposal
  | disposing batch pks =>
    cases batch with
    | nil =>
      simp only [Worker.act] at h
      split at h <;> cases h
      next => exact .returned
      next => exact .disposing
    | cons => cases h; exact .disposed
  | hardDeleting document =>
    simp only [Worker.act] at h
    split at h <;> cases h
    next hrun => exact hardDelete_next (commit_ok hrun)
    next => exact .returned
    next => exact .raised
  | purge => cases h; exact .purge
  | purging batch pks =>
    cases batch with
    | nil =>
      simp only [Worker.act] at h
      split at h <;> cases h
      next => exact .returned
      next => exact .purging
    | cons =>
      simp only [Worker.act] at h
      split at h <;> cases h
      next hrun => exact hardDelete_next (commit_ok hrun)
      next => exact .purging
      next => exact .purging
  | clearing document key job =>
    simp only [Worker.act] at h
    split at h
    next => cases h; exact .cleared
    next =>
      split at h <;> cases h
      next => exact .cleared
      next => exact resume_next
  | cleared document clearedAt job => cases h; exact resume_next
  | uploading user categorySlug file =>
    simp only [Worker.act] at h
    split at h <;> cases h
    next hrun => exact .announced (commit_ok hrun)
    next => exact .raised
  | loading user document file description =>
    simp only [Worker.act] at h
    split at h <;> cases h
    next hrun =>
      obtain ⟨hget, hs⟩ := fetch_ok.mp (commit_ok hrun)
      obtain ⟨hd, rfl⟩ := Numbered.get_eq_some.mp hget
      exact .loaded hd hs
    next => exact .raised
  | versioning user document file description =>
    simp only [Worker.act] at h
    split at h <;> cases h
    next hrun => exact .versioned (commit_ok hrun)
    next => exact .raised
  | presigning new previous =>
    simp only [Worker.act] at h
    split at h <;> cases h
    next => exact .returned
    next => exact .unsigned
  | scanning document =>
    simp only [Worker.act] at h
    split at h
    next =>
      split at h <;> cases h
      next => exact .returned
      next => exact retry_next
    next =>
      split at h <;> cases h
      next key hrun =>
        obtain ⟨d, hd, rfl, hstatus, rfl⟩ := (claimScan_ok (commit_ok hrun)).2 key rfl
        exact .claimed hd hstatus
      next => exact .returned
      next => exact retry_next
  | claimed document key =>
    simp only [Worker.act] at h
    split at h
    next => cases h; exact .unread
    next content hread =>
      split at h <;> cases h
      next =>
        obtain ⟨-, hread⟩ := Option.ite_none_right_eq_some.mp hread
        obtain ⟨k, rfl, hobject⟩ := Option.bind_eq_some_iff.mp hread
        exact .scanned hobject rfl
      next => exact retry_next
  | scanned document content result =>
    simp only [Worker.act] at h
    split at h
    next =>
      split at h
      next => cases h; exact retry_next
      next =>
        split at h
        next => cases h; exact retry_next
        next =>
          split at h <;> cases h
          next k hrun =>
            obtain ⟨hnone, -⟩ | ⟨d, hd, rfl, -, hkey, rfl⟩ := markActiveClamav_ok (commit_ok hrun)
            · cases hnone
            · refine .decided hd (Option.filter_eq_some_iff.mp hkey.symm).1 fun a ha hpk => .inl ?_
              have hd' : d ∈ (s.copied k).documents.rows := hd
              rw [saved_row hd' ha hpk]
              rfl
          next => exact .returned
          next => exact .returned
    next =>
      split at h <;> cases h
      next k hrun =>
        obtain ⟨hnone, -⟩ | ⟨d, hd, rfl, -, hkey, rfl⟩ := markQuarantined_ok (commit_ok hrun)
        · cases hnone
        · refine .decided hd hkey.symm fun a ha hpk => .inr ?_
          rw [saved_row hd ha hpk]
          rfl
      next => exact .returned
      next => exact .returned
  | cleanup => cases h; exact .cleanup rfl
  | cleaning stale keys chunk rest =>
    cases keys with
    | cons => cases h; exact .swept
    | nil =>
      simp only [Worker.act] at h
      split at h <;> cases h
      next hrun => exact .collected (commit_ok hrun)
      next => exact .raised
  | collected stale pks rest =>
    simp only [Worker.act] at h
    split at h <;> cases h
    next hrun => exact .deleted (commit_ok hrun)
    next => exact .raised
  | redeeming token user =>
    simp only [Worker.act] at h
    split at h <;> cases h
    next hrun =>
      obtain ⟨rfl, -⟩ := readToken_ok (commit_ok hrun)
      exact .redeeming (commit_ok hrun) rfl
    next => exact .raised
  | cleaned | returned | raised | dead => cases h

end Civicos.Documents
