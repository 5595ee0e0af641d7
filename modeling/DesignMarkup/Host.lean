import DesignMarkup.Document.Basic

/-!
Hosts: documents whose storage may refuse to be read or written.  A refusal comes before the
document is asked.
-/

namespace DesignMarkup

/-- A document and the refusals of its storage, by element. -/
structure Host where
  document : Document
  writeFault : ElementId → Option HostError := fun _ => none
  readFault : ElementId → Option HostError := fun _ => none

namespace Host

/-- The text stored on an element under a key. -/
def read (host : Host) (id : ElementId) (key : String) : Except HostError (Option String) :=
  match host.readFault id with
  | some fault => .error fault
  | none => host.document.read id key

/-- Store a text on an element under a key. -/
def write (host : Host) (id : ElementId) (key value : String) : Except HostError Host :=
  match host.writeFault id with
  | some fault => .error fault
  | none => (host.document.write id key value).map fun document => { host with document }

end Host
end DesignMarkup
