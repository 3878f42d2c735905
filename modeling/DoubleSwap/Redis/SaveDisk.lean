import DoubleSwap.Data.Storage
import DoubleSwap.Redis.SaveFile

/-! `rdbSave`, which dumps to a temporary file that then takes the place of the
old one, and the two commands that use it. -/
namespace Redis

open Storage

abbrev Disk := FileSystem Bytes UInt8

/-- How a call to the operating system ends. -/
structure Outcome where
  ok : Bool
  /-- The number of bytes that go from the buffer to the file. -/
  taken : Nat

/-- A process with an open file. -/
structure Machine where
  disk : Disk
  /-- The bytes that are not in the file yet. -/
  buffer : Bytes
  processed : UInt64
  outcome : Nat → Outcome
  calls : Nat
  /-- The disk after every call. -/
  seen : List Disk

namespace Machine

variable (m : Machine)

def answer : Outcome := m.outcome m.calls

/-- The state after a call. -/
def after (disk : Disk) (buffer : Bytes) : Machine :=
  { m with disk := disk, buffer := buffer, calls := m.calls + 1, seen := m.seen ++ [disk] }

/-- A part of the buffer goes to the file. -/
def spill (fp : Nat) (bytes : Bytes) (taken : Nat) : Machine :=
  m.after (m.disk.append fp (bytes.take taken)) (bytes.drop taken)

/-- `fopen(name,"w")`. -/
def fopen (name : Bytes) : Option Nat × Machine :=
  if m.answer.ok then
    match m.disk.openForWriting name with
    | (fp, disk) => (some fp, m.after disk [])
  else (none, m.after m.disk [])

def fwrite (fp : Nat) (p : Bytes) : Bool × Machine :=
  (m.answer.ok, m.spill fp (m.buffer ++ p) m.answer.taken)

def fflush (fp : Nat) : Bool × Machine :=
  (m.answer.ok, m.spill fp m.buffer (if m.answer.ok then m.buffer.length else m.answer.taken))

def fsync (fp : Nat) : Bool × Machine :=
  (m.answer.ok, m.after (if m.answer.ok then m.disk.sync fp else m.disk) m.buffer)

def fclose (fp : Nat) : Bool × Machine :=
  (m.answer.ok,
    { m.spill fp m.buffer (if m.answer.ok then m.buffer.length else m.answer.taken) with
      buffer := [] })

def rename (name target : Bytes) : Bool × Machine :=
  (m.answer.ok ∧ (m.disk.dir name).isSome,
    m.after (if m.answer.ok ∧ (m.disk.dir name).isSome then m.disk.rename name target else m.disk)
      m.buffer)

def unlink (name : Bytes) : Bool × Machine :=
  (m.answer.ok, m.after (if m.answer.ok then m.disk.unlink name else m.disk) m.buffer)

def fsyncFileDir : Bool × Machine :=
  (m.answer.ok, m.after (if m.answer.ok then m.disk.syncDir else m.disk) m.buffer)

end Machine

/-- The stream of `rioInitWithFile`. -/
def fileRio (fp : Nat) : Rio Machine where
  write p m :=
    match m.fwrite fp p with
    | (taken, m') =>
        (taken, { m' with
          processed := m'.processed + if taken then UInt64.ofNat p.length else 0 })
  processedBytes := Machine.processed

def DumpState.machine (st : DumpState Machine) : Machine := st.channel.rio

/-- The state of a dump that a process begins, which last told its parent of its
progress at `infoUpdatedTime`. -/
def DumpState.start (infoUpdatedTime : Int) (m : Machine) : DumpState Machine :=
  ⟨⟨{ m with processed := 0 }, []⟩, 0, none, 0, infoUpdatedTime, [], []⟩

/-- `goto werr`. -/
def werr (fp : Option Nat) (filename : Bytes) (m : Machine) : Machine :=
  let m := match fp with
    | some fp => (m.fclose fp).2
    | none => m
  (m.unlink filename).2

/-- The end of `rdbSaveInternal`. -/
def finishFile (fp : Nat) (filename : Bytes) (m : Machine) : Bool × Machine :=
  match m.fflush fp with
  | (false, m) => (false, werr (some fp) filename m)
  | (true, m) =>
      match m.fsync fp with
      | (false, m) => (false, werr (some fp) filename m)
      | (true, m) =>
          match m.fclose fp with
          | (false, m) => (false, werr none filename m)
          | (true, m) => (true, m)

/-- The file is replaced, and the directory synced. -/
def replaceFile (tmpfile filename : Bytes) (m : Machine) : Bool × Machine :=
  match m.rename tmpfile filename with
  | (false, m) => (false, (m.unlink tmpfile).2)
  | (true, m) => m.fsyncFileDir

section Model

variable (server : FileServer) (ctx : DumpContext) (req : DumpRequest) (dbs : List RedisDb)

/-- `rdbSaveInternal`, with the additions taken out of the dump. -/
def rdbSaveInternal (filename : Bytes) (infoUpdatedTime : Int) (m : Machine) : Bool × Machine :=
  match m.fopen filename with
  | (none, m) => (false, m)
  | (some fp, m) =>
      match rdbSaveFile server (fileRio fp) ctx req dbs (.start infoUpdatedTime m) with
      | (false, st) => (false, werr (some fp) filename st.machine)
      | (true, st) => finishFile fp filename st.machine

/-- `temp-%d.rdb`. -/
def tempFile (pid : Int) : Bytes := ascii "temp-" ++ server.ll2string pid ++ ascii ".rdb"

/-- The variables of the server are for the caller to set, if it returns
`C_OK`. -/
def rdbSave (pid : Int) (filename : Bytes) (infoUpdatedTime : Int) (m : Machine) :
    Bool × Machine :=
  match rdbSaveInternal server ctx req dbs (tempFile server pid) infoUpdatedTime m with
  | (false, m) => (false, m)
  | (true, m) => replaceFile (tempFile server pid) filename m

end Model

end Redis
