import Canopen.Bench.Script
import Canopen.Bench.Together
import Canopen.Cli.Command
import Canopen.FileTree
/-!
# Commands on a bench

A bench and files in memory, as all that commands reach outside.
-/
namespace Canopen.Cli

structure Desk where
  bench : Bench
  files : FileTree

namespace Desk

/-- What commands reach on a desk. A script is played while events are monitored. -/
def outside (s : Bench.Script) : Outside Desk where
  channel := Bench.channel.within Desk.bench fun bench d => { d with bench }
  listen d :=
    let (happenings, bench) := d.bench.listen s
    (happenings, { d with bench })
  readFile path d := (d.files.read path, d)
  writeFile path bytes d :=
    match d.files.write path bytes with
    | .ok files => (.ok (), { d with files })
    | .error fault => (.error fault, d)

end Desk

end Canopen.Cli
