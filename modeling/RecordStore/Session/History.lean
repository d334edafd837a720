import RecordStore.Session

/-!
# Histories of sessions

What is asked of a session can be written down as a list of requests. Carrying them out one after
the other gives a list of answers, one for each: a request that fails is answered by its error, and
the session goes on.
-/

namespace RecordStore.Session

open Storage (Backend)

/-- Something asked of a session. A prepared statement is asked for with its plan. -/
inductive Request where
  | run (text : String) (parameters : List Datum) (clock : Moment)
  | get (text : String) (parameters : List Datum) (clock : Moment)
  | all (text : String) (parameters : List Datum) (clock : Moment)
  | dispatch (mode : Mode) (text : String) (parameters : List Datum) (clock : Moment)
  | exec (script : String)
  | explain (text : String)
  | prepare (text : String)
  | runPrepared (plan : Plan) (parameters : List Datum) (clock : Moment)
  | getPrepared (plan : Plan) (parameters : List Datum) (clock : Moment)
  | allPrepared (plan : Plan) (parameters : List Datum) (clock : Moment)
  | database
  | flush

/-- What a session answers. -/
inductive Answer where
  | ran (stats : Stats)
  | row (record : Option Record)
  | rows (records : List Record)
  | dispatched (output : Output) (stats : Stats)
  | removed (count : Nat)
  | explained (explanation : Plan.Explanation)
  | prepared (plan : Plan)
  | contents (db : Database)
  | flushed

variable {m : Type → Type} [Monad m]

/-- Carries out a request. -/
def Request.perform (b : Backend m) : Request → Call m Answer
  | run text parameters clock => do
    return .ran (← Session.run b (← compile text) parameters clock)
  | get text parameters clock => do
    return .row (← Session.query b (← compile text) parameters clock).rows.head?
  | all text parameters clock => do
    return .rows (← Session.query b (← compile text) parameters clock).rows
  | dispatch mode text parameters clock => do
    let (output, stats) ← Session.dispatch b mode text parameters clock
    return .dispatched output stats
  | exec script => return .removed (← Session.exec b script)
  | explain text => return .explained (← compile text).explain
  | prepare text => return .prepared (← compile text)
  | runPrepared plan parameters clock => return .ran (← Session.run b plan parameters clock)
  | getPrepared plan parameters clock => do
    return .row (← Session.query b plan parameters clock).rows.head?
  | allPrepared plan parameters clock => return .rows (← Session.query b plan parameters clock).rows
  | database => return .contents (← Session.database b)
  | flush => do
    Session.flush b
    return .flushed

/-- Carries out requests one after the other. -/
def history (b : Backend m) (requests : List Request) :
    StateT Session m (List (Except SessionError Answer)) :=
  requests.mapM fun request => (request.perform b).run

end RecordStore.Session
