import BoardWiring.Log.Output

/-!
# Sessions

What a program does with the loggers in the course of time.  It sets them up, it logs messages, and
it builds buses, which are logged too.

* `Action.effect` is what an action writes and whether it fails, `Action.next` are the loggers
  behind it;
* `after` are the loggers after some actions.
-/

namespace BoardWiring

namespace Log

/-- Something that a program does with the loggers. -/
inductive Action where
  | setUp (name level : String)
  | log (message : Message)
  | buildBus (family : Family) (settings : BusSettings) (shared : Bool)

/-- What is seen of an action. -/
structure Effect where
  /-- Text that is written. -/
  text : String
  /-- Reason why the action fails, if it does. -/
  fault : Option Failure

namespace Action

/-- What an action writes at a time, and whether it fails. -/
def effect (r : Registry) (stamp : String) : Action → Effect
  | .setUp name level =>
    match r.setUp name level with
    | .ok _ => ⟨"", none⟩
    | .error f => ⟨"", some f⟩
  | .log m =>
    match (Log.log r stamp m).1 with
    | .ok text => ⟨text, none⟩
    | .error f => ⟨"", some f⟩
  | .buildBus family s shared =>
    let text := writtenJournal r stamp (Journal.ofBus family s)
    match Bus.build family s shared with
    | .ok _ => ⟨text, none⟩
    | .error f => ⟨text, some f⟩

/-- The loggers behind an action. -/
def next (r : Registry) : Action → Registry
  | .setUp name level =>
    match r.setUp name level with
    | .ok r => r
    | .error _ => r
  | .log m => r.register m.logger
  | .buildBus _ _ _ => r

end Action

/-- The loggers after some actions of a program. -/
def after (actions : List Action) : Registry := actions.foldl Action.next loggers

end Log

end BoardWiring
