import Sluice.Proofs.Machine.Session
import Sluice.Watch.Command

/-!
# Watching for a number of events

A run that is to end after `n` events prints the first `n` of those that are of interest.
-/

namespace Sluice.Watch

open List Act

variable {settings : Settings} {n count : Nat} {s : Session} {batches : List Batch} {rest : List (Result Batch)}

/-- **The records of events of interest**, in their order. -/
def recordsOf (settings : Settings) (t : FileTree) (events : Pairs) : List Value :=
  (events.filter fun e => accepts settings.includes settings.excludes e.2).map fun e => eventRecord t settings.root e.1 e.2

def here (settings : Settings) (t : FileTree) : Pairs :=
  (if settings.initial then snapshot t settings else []).map fun p => ("exists", p.toString)

def changes (batches : List Batch) : Pairs := batches.flatten.map fun c => (c.1.word, c.2)

@[simp] lemma tree_printed (s : Session) (lines) : (s.printed lines).tree = s.tree := rfl

section

variable {left : Nat} (hn : settings.exitAfter? = some ((count + left : Nat) : Int)) (hleft : 0 < left)
  (hreader : s.reader.limit? = none)

include hn hleft hreader

end

end Sluice.Watch
