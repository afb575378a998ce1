import ShaderBuild.FileSystem.Access
/-!
Freshness by time: outputs are fresh when each of them exists and is newer than every input.
-/
namespace ShaderBuild.Freshness

/-- The latest of the given times. -/
def latest? (times : List (Option Instant)) : Option Instant :=
  times.foldl
    (fun latest time =>
      match latest, time with
      | some latest, some time => some (max latest time)
      | some latest, none => some latest
      | none, time => time) none

/-- The earliest of the times, if there is one and none is missing. -/
def earliest? : List (Option Instant) → Option Instant
  | [] => none
  | [time] => time
  | time :: rest =>
    match time, earliest? rest with
    | some time, some earliest => some (min time earliest)
    | _, _ => none

/-- Outputs are stale when one is missing, when there are none, or when the newest input is at least
as new as the oldest output. -/
def stale (inputs outputs : List (Option Instant)) : Bool :=
  match latest? inputs, earliest? outputs with
  | _, none => true
  | none, some _ => false
  | some latest, some earliest => earliest ≤ latest

/-- `stale` for the times of files. -/
def filesStale (files : FileSystem) (inputs outputs : List Path) : Bool :=
  stale (inputs.map files.modified?) (outputs.map files.modified?)

/-- Gives every file of the list that exists the time `now`: how many there were, unless one could
not be changed, and the file system after the changes made. As no file has an owner here, those that
exist can all be changed. -/
def refresh (now : Instant) : FileSystem → List Path →
    Except (Path × FileError) Nat × FileSystem
  | files, [] => (.ok 0, files)
  | files, path :: rest =>
    if (files.modified? path).isNone then refresh now files rest
    else
      match files.setModified path now with
      | .error problem => (.error (path, problem), files)
      | .ok changed =>
        let (count, whole) := refresh now changed rest
        (count.map (· + 1), whole)

end ShaderBuild.Freshness
