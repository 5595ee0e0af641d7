import DesignMarkup.Session
import Mathlib.Logic.Relation

/-!
Runs of a session: requests one after the other, with changes of the host in between.  Whatever a
request asks for, the host and the store are changed in a few kinds of steps only.
-/

namespace DesignMarkup

/-- A request, the time at which it comes, and what became of the host since the last one. -/
structure Turn where
  meanwhile : Host → Host
  now : Instant
  request : Inbound

namespace Session

/-- Handle a request on the host as it is by then. -/
def turn (s : Session) (t : Turn) : Session × List Outbound :=
  Session.handle { s with host := t.meanwhile s.host } t.now t.request

/-- Handle requests in order.  The answers are those of the first request, then those of the
next. -/
def run (s : Session) : List Turn → Session × List Outbound
  | [] => (s, [])
  | t :: rest =>
      let (s, answers) := s.turn t
      let (s, more) := s.run rest
      (s, answers ++ more)

end Session

namespace Tagging

/-- What can happen to a host and its store at once: a record is committed or removed, or an
artifact is written or cleared. -/
inductive Step : Tagging → Tagging → Prop where
  | commit {t t' : Tagging} (r : TagRecord) : t.commit r = .ok t' → Step t t'
  | remove {t t' : Tagging} (id : ElementId) : t.removeOne? id = some t' → Step t t'
  | artifact {t : Tagging} {host : Host} (id : ElementId) (key value : String) :
      key ≠ TagStore.dataKey → t.host.write id key value = .ok host → Step t ⟨host, t.store⟩

/-- Any number of steps. -/
abbrev Steps : Tagging → Tagging → Prop :=
  Relation.ReflTransGen Step

/-- The steps that are about tags: a record is committed or removed. -/
inductive TagStep : Tagging → Tagging → Prop where
  | commit {t t' : Tagging} (r : TagRecord) : t.commit r = .ok t' → TagStep t t'
  | remove {t t' : Tagging} (id : ElementId) : t.removeOne? id = some t' → TagStep t t'

/-- Any number of steps that are about tags. -/
abbrev TagSteps : Tagging → Tagging → Prop :=
  Relation.ReflTransGen TagStep

theorem steps_of_tagSteps {t t' : Tagging} (h : TagSteps t t') : Steps t t' := by
  induction h with
  | refl => exact .refl
  | tail _ hstep ih =>
      cases hstep with
      | commit r hcommit => exact ih.tail (.commit r hcommit)
      | remove id hremove => exact ih.tail (.remove id hremove)

/-- Records are committed one after the other. -/
inductive Commits : Tagging → List TagRecord → Tagging → Prop where
  | nil {t : Tagging} : Commits t [] t
  | cons {t next t' : Tagging} {r : TagRecord} {records : List TagRecord}
      (first : t.commit r = .ok next) (rest : Commits next records t') :
      Commits t (r :: records) t'

theorem Commits.tagSteps {t t' : Tagging} {records : List TagRecord} (h : t.Commits records t') :
    TagSteps t t' := by
  induction h with
  | nil => exact .refl
  | cons first _ ih => exact .head (.commit _ first) ih

theorem tagElement_eq_ok {t t' : Tagging} {tag : String} {properties : Properties}
    {id : ElementId} {r : TagRecord} (h : t.tagElement tag properties id = .ok (r, t')) :
    t.commit r = .ok t' := by
  rw [tagElement] at h
  split at h
  · cases h
  · rename_i element _
    cases hcommit : t.commit (t.recordFor tag properties element) with
    | error e => simp [hcommit, Except.map] at h
    | ok next =>
        simp only [hcommit, Except.map, Except.ok.injEq, Prod.mk.injEq] at h
        obtain ⟨rfl, rfl⟩ := h
        exact hcommit

theorem autoTagElement?_eq_some {t t' : Tagging} {id : ElementId} {r : TagRecord}
    (h : t.autoTagElement? id = some (r, t')) : t.commit r = .ok t' := by
  rw [autoTagElement?] at h
  split at h
  · cases h
  · simp only [Option.bind_eq_bind, Option.bind_eq_some_iff, Option.pure_def,
      Option.some.injEq, Prod.mk.injEq] at h
    obtain ⟨element, _, inference, _, next, hcommit, rfl, rfl⟩ := h
    cases hresult : t.commit (.ofElement inference.tag inference.properties element) with
    | error e => simp [hresult, Except.toOption] at hcommit
    | ok other =>
        simp only [hresult, Except.toOption, Option.some.injEq] at hcommit
        rw [hcommit]

theorem commits_tagElements (t : Tagging) (tag : String) (properties : Properties)
    (ids : List ElementId) :
    t.Commits (t.tagElements tag properties ids).1.applied
      (t.tagElements tag properties ids).2 := by
  induction ids generalizing t with
  | nil => exact .nil
  | cons id rest ih =>
      rw [tagElements]
      split
      · rename_i r next heq
        exact .cons (tagElement_eq_ok heq) (ih next)
      · exact ih t

theorem commits_autoTagElements (t : Tagging) (ids : List ElementId) :
    t.Commits (t.autoTagElements ids).1 (t.autoTagElements ids).2 := by
  induction ids generalizing t with
  | nil => exact .nil
  | cons id rest ih =>
      rw [autoTagElements]
      split
      · rename_i r next heq
        exact .cons (autoTagElement?_eq_some heq) (ih next)
      · exact ih t

theorem tagSteps_remove (t : Tagging) (ids : List ElementId) : TagSteps t (t.remove ids).2 := by
  induction ids generalizing t with
  | nil => exact .refl
  | cons id rest ih =>
      rw [remove]
      split
      · rename_i next heq
        exact .head (.remove id heq) (ih next)
      · exact ih t

theorem steps_autoTagElements (t : Tagging) (ids : List ElementId) :
    Steps t (t.autoTagElements ids).2 :=
  steps_of_tagSteps (t.commits_autoTagElements ids).tagSteps

end Tagging

namespace Session

open Tagging (Steps Step TagSteps steps_of_tagSteps)

theorem tagSteps_applyTag (s : Session) (tag : String) (properties : Properties)
    (ids : List ElementId) : TagSteps s.toTagging (s.applyTag tag properties ids).1.toTagging := by
  rw [applyTag, Tagging.apply]
  split
  · exact .refl
  · rename_i outcome t heq
    split at heq
    · cases heq
    · split at heq
      · cases heq
      · have hnext := congrArg Prod.snd (Except.ok.inj heq)
        rw [← show _ = t from hnext]
        exact (Tagging.commits_tagElements _ _ _ _).tagSteps

theorem tagSteps_autoTag (s : Session) (ids : List ElementId) :
    TagSteps s.toTagging (s.autoTag ids).1.toTagging := by
  rw [autoTag]
  split
  · exact .refl
  · exact (Tagging.commits_autoTagElements _ _).tagSteps

theorem steps_saveAst (s : Session) (now : Instant) (ast : String) (id : ElementId)
    (output : GeneratedOutput) : Steps s.toTagging (s.saveAst now ast id output).1.toTagging := by
  rw [saveAst]
  split
  · exact .refl
  · dsimp only
    split
    · exact .refl
    · rename_i host heq
      exact .single (.artifact id AstArtifact.dataKey _ (by decide) heq)

theorem steps_saveComponent (s : Session) (now : Instant) (code : String) (id : ElementId) :
    Steps s.toTagging (s.saveComponent now code id).1.toTagging := by
  rw [saveComponent]
  split
  · exact .refl
  · dsimp only
    split
    · exact .refl
    · rename_i host heq
      exact .single (.artifact id ComponentArtifact.dataKey _ (by decide) heq)

theorem steps_clear (s : Session) (key : String) (hkey : key ≠ TagStore.dataKey) (id : ElementId) :
    Steps s.toTagging (s.clear (fun host id => host.write id key "") id).toTagging := by
  rw [clear]
  split
  · split
    · rename_i host heq
      exact .single (.artifact id key "" hkey heq)
    · exact .refl
  · exact .refl

/-- Handling a request changes the host and the store by such steps only. -/
theorem steps_handle (s : Session) (now : Instant) (request : Inbound) :
    Steps s.toTagging (s.handle now request).1.toTagging := by
  cases request with
  | getSelection => exact .refl
  | applyTag tag properties ids => exact steps_of_tagSteps (s.tagSteps_applyTag tag properties ids)
  | removeTag ids => exact steps_of_tagSteps (s.toTagging.tagSteps_remove ids)
  | exportTags => exact .refl
  | autoTagSelection ids => exact steps_of_tagSteps (s.tagSteps_autoTag ids)
  | generateRichJson => exact .refl
  | saveAst ast id output => exact s.steps_saveAst now ast id output
  | clearAst id => exact s.steps_clear AstArtifact.dataKey (by decide) id
  | saveComponent code id => exact s.steps_saveComponent now code id
  | clearComponent id => exact s.steps_clear ComponentArtifact.dataKey (by decide) id

end Session
end DesignMarkup
