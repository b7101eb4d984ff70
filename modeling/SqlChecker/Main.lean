import SqlChecker.Command.Session

/-! # The command

Reads the files, the variable and standard input that a session needs, and prints what it leaves
behind. -/
open SqlChecker

/-- Reads a stream to its end. -/
partial def readToEnd (stream : IO.FS.Stream) (sofar : ByteArray) : IO ByteArray := do
  let chunk ← stream.read 65536
  if chunk.isEmpty then return sofar else readToEnd stream (sofar ++ chunk)

/-- Why the system could not read a file. Of the two codes for a file of the wrong type, which may
come with either sign, 21 is that of a directory. -/
def readFault : IO.Error → ReadFault
  | .noFileOrDirectory .. => .notFound
  | .inappropriateType _ code _ =>
    if code = 21 ∨ code = 0 - 21 then .isADirectory else .notADirectory
  | e => .other e.toString

/-- What was read, or why nothing was. -/
def caught (read : IO ByteArray) : IO (Except ReadFault ByteArray) := do
  match ← read.toBaseIO with
  | .ok bytes => return .ok bytes
  | .error e => return .error (readFault e)

/-- The files, the variable and standard input of the system. -/
def system : Session.Surroundings IO where
  limit? := IO.getEnv limitVariable
  fileAt path := caught (IO.FS.readBinFile path)
  standardInput := caught do readToEnd (← IO.getStdin) .empty

def main (arguments : List String) : IO UInt32 := do
  let session ← Session.run Options.parse system arguments
  (← IO.getStdout).putStr session.printed
  for line in session.log do
    (← IO.getStderr).putStrLn line
  return session.code.toUInt32
