import Socksprox.LoggerJoin
import Socksprox.Run.Literal
import Socksprox.Run.Nonblock

/-!
`main` (`src/socksprox.c`) around its loop: the configuration is read, the logger and the listeners
are started, and the resolver if there are to be domain names. What goes wrong on the way ends the
server, unless it is the resolver, and the logger is ended last: `main` does not return before the
logger's thread has ended.
-/

namespace Socksprox

open Logger (Call)

/-! ### Starting the resolver -/

/-- The answers to the calls of `init_resolver`. -/
structure ResolverAnswers where
  inpipe : Bool
  outpipe : Bool
  malloc : Bool
  epollAdd : Bool
  pthreadCreate : Bool

/-- The answers to the calls of `main` before its loop, `init_logger` included. -/
structure MainAnswers where
  loggerPipe : Bool
  loggerThread : Bool
  malloc : Bool
  epollCreate : Bool
  listeners : Nat → ListenAnswers
  resolver : ResolverAnswers

section Ends

variable {log log' served : List Call} {reason : Call}
  {loaded : Int × FileConfigs × List String} {ans : MainAnswers}

/-- Nothing in it is logged with `log_custom`. -/
def NoCustom (log : List Call) : Prop := ∀ c ∈ log, ¬ c.IsCustom

instance : DecidablePred NoCustom := fun _ => inferInstanceAs (Decidable (∀ _ ∈ _, _))

theorem NoCustom.append (h : NoCustom log) (h' : NoCustom log') : NoCustom (log ++ log') :=
  List.forall_mem_append.mpr ⟨h, h'⟩

theorem NoCustom.accepted {timing : List (Lib.Move Logger.Attempt)} (h : NoCustom log)
    (hlog : (Lib.writes timing).map Logger.Attempt.call = log) :
    ∀ c ∈ Logger.accepted timing, ¬ c.IsCustom := by
  intro c hc
  refine h c ?_
  rw [← hlog]
  exact Logger.mem_accepted hc

end Ends

/-! ### The loop -/

/-- What the loop of `main` finds when it begins: settings that a server can run with, a listener
for each address, and the resolver if names are allowed. Where there is no resolver nothing is ever
asked of it. -/
structure Ready (configs : FileConfigs) (proxy : Proxy) (resolver : Bool) (ans : MainAnswers) :
    Prop where
  usable : configs.Usable
  listens : ∀ n sa, configs.listenHead[n]? = some sa →
    ∃ fd, (ans.listeners n).socket = some fd ∧ proxy.listeners fd = some ⟨true, true⟩
  names : configs.allowDomains = true → resolver = true
  unasked : resolver = false → ∀ pipes is p,
    Lib.run (proxyStep configs.toConfigs pipes) is proxy = .ok () p → Unasked p

section Listeners

variable {fds fds' : Int → Option Listener} {l : List (SockAddr × ListenAnswers)} {sa : SockAddr}
  {ans : ListenAnswers} {log : List Call}

end Listeners

end Socksprox
