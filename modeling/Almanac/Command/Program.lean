import Almanac.DataFile.Report

/-!
A command as the steps that it takes: it reads a file and goes on with what it is given, prints a
text, writes a file, and in the end is done or fails. The folder that it runs in gives the answers.
-/

namespace Almanac.Command

/-- Each step but a last one says how to go on from its answer. -/
inductive Program (α : Type)
  | done (result : α)
  | fail (report : Report)
  | read (path : String) (next : Except FileError String → Program α)
  | print (text : String) (next : Program α)
  | write (path text : String) (next : Except FileError Unit → Program α)

/-- A step that was taken, with its answer. -/
inductive Event
  | read (path : String) (answer : Except FileError String)
  | print (text : String)
  | write (path text : String) (answer : Except FileError Unit)

def Event.printed : Event → String
  | print text => text
  | read _ _ | write _ _ _ => ""

/-- All that was printed. -/
def printedOf (events : List Event) : String := String.join (events.map Event.printed)

/-- The folder as it is by now, and the steps that were taken, the first one first. -/
structure World where
  folder : Folder
  events : List Event

namespace World

def record (w : World) (event : Event) : World := { w with events := w.events ++ [event] }

def read (w : World) (path : String) : Except FileError String × World :=
  let answer := w.folder.readText path
  (answer, w.record (.read path answer))

def print (w : World) (text : String) : World := w.record (.print text)

/-- A file that cannot be written leaves the folder as it is. -/
def write (w : World) (path text : String) : Except FileError Unit × World :=
  match w.folder.writeText path text with
  | .ok folder => (.ok (), { w with folder }.record (.write path text (.ok ())))
  | .error cause => (.error cause, w.record (.write path text (.error cause)))

end World

namespace Program
variable {α β : Type}

def bind (p : Program α) (next : α → Program β) : Program β :=
  match p with
  | done result => next result
  | fail report => fail report
  | read path rest => read path fun answer => (rest answer).bind next
  | print text rest => print text (rest.bind next)
  | write path text rest => write path text fun answer => (rest answer).bind next

instance : Monad Program where
  pure := done
  bind := bind

/-- Takes all steps. -/
def run (p : Program α) (w : World) : Except Report α × World :=
  match p with
  | done result => (.ok result, w)
  | fail report => (.error report, w)
  | read path next => (next (w.read path).1).run (w.read path).2
  | print text next => next.run (w.print text)
  | write path text next => (next (w.write path text).1).run (w.write path text).2

/-- Has no step left. -/
def ofResult : Except Report α → Program α
  | .ok result => done result
  | .error report => fail report

/-- Loads the store of a file. -/
def loadFile (path : String) : Program Store :=
  read path fun answer => ofResult (Report.loadFile (fun _ => answer) path)

def printLine (line : String) : Program Unit := print (line ++ "\n") (done ())

def printLines : List String → Program Unit
  | [] => done ()
  | line :: lines => do
    printLine line
    printLines lines

def exportFailure (path : String) (cause : FileError) : Report :=
  .plain ("Failed to export calendar: " ++ (SaveError.unwritable path cause).message)

/-- Saves a store as a data file. -/
def saveStore (path : String) (store : Store) : Program Unit :=
  write path store.fileText fun
    | .ok () => done ()
    | .error cause => fail (exportFailure path cause)

end Program
end Almanac.Command
