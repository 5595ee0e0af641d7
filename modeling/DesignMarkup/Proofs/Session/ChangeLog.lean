import DesignMarkup.Proofs.Session.Run
import DesignMarkup.Proofs.Tag.Store

/-!
The answers of a session tell every change of its store.  A client that begins with the loaded
records and follows the answers has the records of the store at any time, in the same order,
whatever happens to the host between the requests.
-/

namespace DesignMarkup

namespace Outbound

/-- The records that a client begins with: those of the first answer, by element. -/
def loadedRecords : Outbound → OrderedMap ElementId TagRecord
  | tagsLoaded records => .ofList (records.map fun r => (r.elementId, r))
  | _ => .empty

/-- The records of a client after an answer.  Only the answers about a single record count. -/
def follow (records : OrderedMap ElementId TagRecord) :
    Outbound → OrderedMap ElementId TagRecord
  | tagApplied r => records.insert r.elementId r
  | tagRemoved id => records.erase id
  | _ => records

theorem foldl_follow_applied (store : TagStore) (applied : List TagRecord) :
    (applied.map tagApplied).foldl follow store.records =
      (applied.foldl TagStore.insert store).records := by
  induction applied generalizing store with
  | nil => rfl
  | cons r rest ih => exact ih (store.insert r)

theorem foldl_follow_removed (store : TagStore) (removed : List ElementId) :
    (removed.map tagRemoved).foldl follow store.records =
      (removed.foldl TagStore.erase store).records := by
  induction removed generalizing store with
  | nil => rfl
  | cons id rest ih => exact ih (store.erase id)

theorem foldl_follow_errors {α : Type} (records : OrderedMap ElementId TagRecord)
    (text : α → String) (refusals : List α) :
    (refusals.map fun refusal => error (text refusal)).foldl follow records = records := by
  induction refusals with
  | nil => rfl
  | cons refusal rest ih => exact ih

end Outbound

namespace Tagging

theorem store_of_commit {t t' : Tagging} {r : TagRecord} (h : t.commit r = .ok t') :
    t'.store = t.store.insert r := by
  rw [commit] at h
  cases hwrite : t.host.write r.elementId TagStore.dataKey r.toText with
  | error e => simp [hwrite, Except.map] at h
  | ok host =>
      simp only [hwrite, Except.map, Except.ok.injEq] at h
      rw [← h]

theorem store_of_removeOne? {t t' : Tagging} {id : ElementId} (h : t.removeOne? id = some t') :
    t'.store = t.store.erase id := by
  rw [removeOne?] at h
  split at h
  · split at h
    · cases h
      rfl
    · cases h
      rfl
    · cases h
  · cases h

/-- The records that were committed are those that were put into the store, in that order. -/
theorem Commits.store_eq {t t' : Tagging} {records : List TagRecord} (h : t.Commits records t') :
    t'.store = records.foldl TagStore.insert t.store := by
  induction h with
  | nil => rfl
  | cons first _ ih =>
      rw [ih, store_of_commit first]
      rfl

theorem store_remove (t : Tagging) (ids : List ElementId) :
    (t.remove ids).2.store = (t.remove ids).1.foldl TagStore.erase t.store := by
  induction ids generalizing t with
  | nil => rfl
  | cons id rest ih =>
      rw [remove]
      split
      · rename_i next heq
        rw [ih next, store_of_removeOne? heq]
        rfl
      · exact ih t

end Tagging

namespace Session

open Outbound (follow)

theorem follow_applyTag (s : Session) (tag : String) (properties : Properties)
    (ids : List ElementId) :
    (s.applyTag tag properties ids).2.foldl follow s.store.records =
      (s.applyTag tag properties ids).1.store.records := by
  rw [applyTag]
  split
  · rfl
  · rename_i outcome t heq
    rw [Tagging.apply] at heq
    split at heq
    · cases heq
    · split at heq
      · cases heq
      · have hstore := (s.toTagging.commits_tagElements (Text.trim tag) properties ids).store_eq
        rw [Except.ok.inj heq] at hstore
        rw [List.foldl_append, Outbound.foldl_follow_applied,
          Outbound.foldl_follow_errors _
            (fun refusal : ElementId × HostError => hostErrorText refusal.2), ← hstore]

theorem follow_removeTag (s : Session) (ids : List ElementId) :
    (s.removeTag ids).2.foldl follow s.store.records = (s.removeTag ids).1.store.records := by
  have hstore := s.toTagging.store_remove ids
  rw [removeTag]
  dsimp only
  rw [hstore]
  split
  · rename_i hempty
    rw [List.isEmpty_iff.mp hempty]
    rfl
  · exact Outbound.foldl_follow_removed s.store _

theorem follow_autoTag (s : Session) (ids : List ElementId) :
    (s.autoTag ids).2.foldl follow s.store.records = (s.autoTag ids).1.store.records := by
  rw [autoTag]
  split
  · rfl
  · rw [Tagging.autoTag]
    dsimp only
    rw [List.foldl_append, Outbound.foldl_follow_applied,
      (Tagging.commits_autoTagElements _ _).store_eq]
    rfl

theorem follow_saveAst (s : Session) (now : Instant) (ast : String) (id : ElementId)
    (output : GeneratedOutput) :
    (s.saveAst now ast id output).2.foldl follow s.store.records =
      (s.saveAst now ast id output).1.store.records := by
  rw [saveAst]
  split
  · rfl
  · dsimp only
    split <;> rfl

theorem follow_saveComponent (s : Session) (now : Instant) (code : String) (id : ElementId) :
    (s.saveComponent now code id).2.foldl follow s.store.records =
      (s.saveComponent now code id).1.store.records := by
  rw [saveComponent]
  split
  · rfl
  · dsimp only
    split <;> rfl

theorem store_clear (s : Session) (clearing : Host → ElementId → Except HostError Host)
    (id : ElementId) : (s.clear clearing id).store = s.store := by
  rw [clear]
  split
  · split <;> rfl
  · rfl

/-- Following the answers to a request does to the records what the request did to the store. -/
theorem follow_handle (s : Session) (now : Instant) (request : Inbound) :
    (s.handle now request).2.foldl follow s.store.records =
      (s.handle now request).1.store.records := by
  cases request with
  | getSelection => rfl
  | applyTag tag properties ids => exact s.follow_applyTag tag properties ids
  | removeTag ids => exact s.follow_removeTag ids
  | exportTags => rfl
  | autoTagSelection ids => exact s.follow_autoTag ids
  | generateRichJson => rfl
  | saveAst ast id output => exact s.follow_saveAst now ast id output
  | clearAst id => exact congrArg TagStore.records (s.store_clear _ id).symm
  | saveComponent code id => exact s.follow_saveComponent now code id
  | clearComponent id => exact congrArg TagStore.records (s.store_clear _ id).symm

theorem follow_run (s : Session) (turns : List Turn) :
    (s.run turns).2.foldl follow s.store.records = (s.run turns).1.store.records := by
  induction turns generalizing s with
  | nil => rfl
  | cons t rest ih =>
      have hturn := follow_handle { s with host := t.meanwhile s.host } t.now t.request
      have hrest := ih (s.turn t).1
      rw [run]
      dsimp only
      rw [List.foldl_append]
      exact (congrArg (List.foldl follow · _) hturn).trans hrest

/-- The first answer tells the records of a store that is as it was loaded. -/
theorem loadedRecords_start (host : Host) (settings : Settings) :
    (start host settings).tagsLoaded.loadedRecords = (start host settings).store.records :=
  OrderedMap.ofList_values (TagStore.filed_load host)

/-- At any time of a run, and whatever becomes of the host between the requests, a client that
began with the loaded records and followed all answers has the records of the store in their
order. -/
theorem followed_answers_eq_records (host : Host) (settings : Settings) (turns : List Turn) :
    let begun := start host settings
    (begun.run turns).2.foldl follow begun.tagsLoaded.loadedRecords =
      (begun.run turns).1.store.records := by
  intro begun
  rw [loadedRecords_start, follow_run]

end Session
end DesignMarkup
