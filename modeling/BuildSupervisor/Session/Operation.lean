import BuildSupervisor.Session.Basic
/-!
# Runs of a session

Whatever can happen to a session is an `Operation`; a run is a list of them.  `Session.apply` does
one operation and `Session.run` does them one after the other.
-/

namespace BuildSupervisor

/-- What can be asked of a session, or happen to the console it reads. -/
inductive Operation where
  | start (located : Located) (request : BuildRequest)
  | outputChunk (c : Chunk)
  | drainConsole
  | nextChunk
  | buildComplete (succeeded : Bool) (reported : String)
  | finalize (id : BuildId) (succeeded : Bool) (reported : String)
  | watchdog (id : BuildId)
  | advance (by_ : Duration)
  | reset
  | write (c : Chunk)
  | closeConsole

/-- What an operation answers. -/
inductive Answer where
  | started (outcome : Except SessionError StartOutcome)
  | accepted (yes : Bool)
  | counted (n : Nat)
  | next (c : NextChunk)
  | result (r : Option BuildResult)
  | done

namespace Session

def apply (s : Session) : Operation → Answer × Session
  | .start located request => (s.start located request).map .started id
  | .outputChunk c => (s.onOutputChunk c).map .accepted id
  | .drainConsole => s.drainConsole.map .counted id
  | .nextChunk => s.nextChunk.map .next id
  | .buildComplete succeeded reported => (s.onBuildComplete succeeded reported).map .accepted id
  | .finalize number succeeded reported => (s.finalize number succeeded reported).map .result id
  | .watchdog number => (s.onWatchdog number).map .result id
  | .advance by_ => (s.advance by_).map .counted id
  | .reset => (.done, s.reset)
  | .write c => (s.write c).map .counted id
  | .closeConsole => (.done, s.closeConsole)

/-- Does operations one after the other. -/
def run (s : Session) : List Operation → Session
  | [] => s
  | op :: ops => run (s.apply op).2 ops

/-- The answers to operations done one after the other. -/
def answers (s : Session) : List Operation → List Answer
  | [] => []
  | op :: ops => (s.apply op).1 :: answers (s.apply op).2 ops

end Session

end BuildSupervisor
