import Mqss.RestGrammar
import Mqss.Control

/-!
The two control protocols side by side. A request of either protocol is executed by
its command alone, so two requests that write one operation do the same, unless the
operation creates a task with a negative number of shots: the typed decoder passes
it on and the REST-like one refuses it.
-/

namespace Mqss.QOffload
open Mqss.Words Mqss.Segments

namespace Control

/-- The outcome of a request before it is encoded. -/
def result (request : APIRequest) (tasks : TaskStore) (config : Config) (forwarder : Forward) : ControlResult :=
  (executeControlCommand (command request) tasks config forwarder).1.result

end Control

theorem PathName.ends {last : String} (named : PathName last) (front : String) :
    (front ++ last).toList.getLast? ≠ some '/' := by
  have nonempty : last.toList ≠ [] := by simpa using named.nonempty
  rw [String.toList_append, List.getLast?_append_of_ne_nil _ nonempty]
  intro slash
  exact named.plain (List.mem_of_getLast? slash)

end Mqss.QOffload
