/-
Automation/Run/Workspace.lean

Views over one journal.

A workspace holds the views that came out of one view by forking it and by
entering iterations, in the order in which they came up.  An operation works on
one of them: it reads it, writes to it, adds to the journal, or brings up a new
view.  It never changes another view.
-/
import Automation.Run.Journal

namespace Automation.Run

/-- Views over one journal, in the order in which they came up. -/
structure Workspace where
  views : List View
  journal : Journal

/-- What can be done with a view of a workspace. -/
inductive Operation
  | write (node : String) (result : Value)
  | get (node : String)
  | resolve (value : Value)
  | fork
  | enter (loop : String) (index : Int) (bindings : Fields Value) (frame : Value)
  | isInside (loop : String)
  | claim (node : String)
  | fail (node message : String)
  | log (line : Line)
  | cancel

namespace Workspace

/-- One view over an empty journal. -/
def new (view : View) : Workspace := ⟨[view], []⟩

/-- The workspace with one more event. -/
def adding (w : Workspace) (e : Event) : Workspace := { w with journal := w.journal.adding [e] }

/-- The workspace with one more view. -/
def bringUp (w : Workspace) (view : View) : Workspace := { w with views := w.views ++ [view] }

/-- Does something with the view at a place, which is given as well.  The answer
is what came of it, and the view that it was about. -/
def operate (w : Workspace) (place : Nat) (view : View) :
    Operation → Except Fault Value × View × Workspace
  | .write node result =>
    let written := view.write node result
    (.ok .null, written, { w with views := w.views.set place written }.adding
      (.wrote view.scope node result))
  | .get node => (.ok (view.results.at node), view, w)
  | .resolve value => (view.resolve value, view, w)
  | .fork => (.ok .null, view, w.bringUp view)
  | .enter loop index bindings frame =>
    let inner := view.enter loop index bindings frame
    (.ok .null, inner, w.bringUp inner)
  | .isInside loop => (.ok (.bool (view.isInside loop)), view, w)
  | .claim node =>
    let (taken, journal) := w.journal.claim view.scope node
    (.ok (.bool taken), view, { w with journal })
  | .fail node message => (.ok .null, view, w.adding (.erred view.scope node message))
  | .log line => (.ok .null, view, w.adding (.logged line))
  | .cancel => (.ok .null, view, w.adding .cancelled)

/-- Does something with the view at a place, if there is one. -/
def operate? (w : Workspace) (place : Nat) (operation : Operation) :
    Option (Except Fault Value × View × Workspace) :=
  (w.views[place]?).map fun view => w.operate place view operation

end Workspace

end Automation.Run
