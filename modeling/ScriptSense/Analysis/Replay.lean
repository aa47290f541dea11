import ScriptSense.Analysis.Traced
import ScriptSense.Namespace.Database

/-! Carrying the steps of an analysis over to the database: the views it asked for are remembered
there, and what happens on the way is reported between the events of the analysis. -/
namespace ScriptSense
namespace Database

def replayStep (db : Database) : Step → Database × List Event
  | .viewed name => (db.view name).2
  | .read name => (db.read name).2
  | .reported event => (db, [event])

def replay (db : Database) : List Step → Database × List Event
  | [] => (db, [])
  | step :: rest =>
    let (db, events) := db.replayStep step
    let (db, later) := db.replay rest
    (db, events ++ later)

end Database
end ScriptSense
