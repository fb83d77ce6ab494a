import Socksprox.World

/-!
The epoll registrations and the release of a connection (`src/epoll_data.c`).
-/

namespace Socksprox

open Lib.Exec (get modify throw)

/-! ### Registrations

`log_error` on a failed call writes to the logger's pipe only. -/

def epAddNewClient (fd : Int) (data : Option Side) : Proc Bool := epollCtlAdd fd epollIn data

def epConnecting (fd : Int) (data : Option Side) : Proc Bool := epollCtlAdd fd epollOut data

def epWaitingSend (fd : Int) (data : Option Side) : Proc Bool := epollCtlMod fd epollInOut data

def epDoneSending (fd : Int) (data : Option Side) : Proc Bool := epollCtlMod fd epollIn data

def epDeleteFd (fd : Int) : Proc Unit := epollCtlDel fd

/-! ### `free_data` -/

/-- `free` of a pointer that may be null. -/
def freeIf (nonNull : Bool) (o : Obj) : Proc Unit := if nonNull then free o else pure ()

/-- One output buffer, and its pointer nulled. -/
def freeBuff (s : Side) : Proc Unit := do
  let shared ← sharedVal
  freeIf (shared.outBuff s) (.buff s)
  modifyShared fun sh => { sh with outBuff := Function.update sh.outBuff s false }

/-- `Info`, unless it is gone: the request's address, the resolved list and `Info`
itself. -/
def freeInfo : Proc Unit := do
  let shared ← sharedVal
  if !shared.info then
    return
  let info ← infoVal
  freeIf info.sa.isSome .sa
  freeIf (!info.ai.isEmpty) .ai
  free .info
  modifyShared fun sh => { sh with info := false }

/-- The pointer back from `Shared` to an end whose descriptor is `self`. -/
def unlinkData (self : Int) : Proc Unit :=
  modifyShared fun sh => { sh with data := fun s => if self = sh.fd s then none else sh.data s }

/-- `free_data`. `shared->ptr` is never set. -/
def freeData (e : Side) : Proc Unit := do
  touch (.data e)
  freeInfo
  freeBuff .client
  freeBuff .server
  let self ← dataSelfFd e
  unlinkData self
  let shared ← dataShared e
  freeIf (shared.data .client == none && shared.data .server == none) .shared
  free (.data e)

end Socksprox
