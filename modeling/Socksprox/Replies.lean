import Socksprox.Effects

/-!
The replies in a trace. Each call of `write_ringbuff` on `client_out` stores one chunk: a
method or an error reply is one chunk, a success reply is its head and then the three of its
address.
-/

namespace Socksprox

/-! ### Chunks -/

def Act.chunk? : Act → Option (List UInt8)
  | .queued .client bytes => some bytes
  | _ => none

/-- What was stored into `client_out`, call by call. -/
def World.chunks (w : World) : List (List UInt8) := w.trace.filterMap Act.chunk?

/-- The first chunk of a success reply. -/
def successHead : List UInt8 := [socks5Version, repSuccess, socks5Resv]

/-- The chunks behind it. -/
def ReplyAddr.chunks (a : ReplyAddr) : List (List UInt8) := [[a.atyp], a.addr, a.port]

/-- What `finish_reply` stores: nothing where there is no address. -/
def addrChunks (a : Option ReplyAddr) : List (List UInt8) := a.elim [] ReplyAddr.chunks

namespace World

variable (w : World)

@[simp] theorem chunks_emit (a : Act) : (w.emit a).chunks = w.chunks ++ a.chunk?.toList := by
  simp only [chunks, World.emit_trace, List.filterMap_append]
  cases h : a.chunk? <;> simp [h]

@[simp] theorem chunks_setState (st : State) : (w.setState st).chunks = w.chunks := by
  simp [chunks, Act.chunk?]

@[simp] theorem chunks_queue_server (bytes : List UInt8) :
    (w.queue .server bytes).chunks = w.chunks := by
  unfold World.queue
  split
  · rw [chunks_emit]
    simp only [Act.chunk?, Option.toList_none, List.append_nil]
    rfl
  · rfl

theorem chunks_queue {bytes : List UInt8} (hfit : bytes.length ≤ (w.shared.out .client).free) :
    (w.queue .client bytes).chunks = w.chunks ++ [bytes] := by
  rw [World.queue_fits hfit, chunks_emit]
  rfl

/-- The buffer of an open connection has room for what the handshake stores. -/
theorem free_of_open (hw : Open w) : (w.shared.out .client).free =
    outbuffsize - (w.shared.out .client).used := by
  rw [Ring.free, hw.capacity]

@[simp] theorem chunks_setRep (rep : UInt8) : (w.setRep rep).chunks = w.chunks := rfl

@[simp] theorem chunks_watchSend : w.watchSend.chunks = w.chunks := rfl

@[simp] theorem chunks_watchRecv : w.watchRecv.chunks = w.chunks := rfl

@[simp] theorem chunks_popMod : w.popMod.chunks = w.chunks := rfl

@[simp] theorem chunks_opened (fd : Int) (nonblock : Bool) :
    (w.opened fd nonblock).chunks = w.chunks := rfl

@[simp] theorem chunks_linkServer (sfd : Int) : (w.linkServer sfd).chunks = w.chunks := rfl

@[simp] theorem chunks_setFd (fd : Int) (s : Option Sock) : (w.setFd fd s).chunks = w.chunks := rfl

@[simp] theorem chunks_setInterest (fd : Int) (i : Option (Events × Option Side)) :
    (w.setInterest fd i).chunks = w.chunks := rfl

@[simp] theorem chunks_drop (s : Side) (n : Nat) : (w.drop s n).chunks = w.chunks := rfl

@[simp] theorem chunks_setInfo (info : Info) : (w.setInfo info).chunks = w.chunks := rfl

@[simp] theorem chunks_noted (ss : SockAddr) : (w.noted ss).chunks = w.chunks := rfl

@[simp] theorem chunks_acceptedPeer (fd : Int) (ss : SockAddr) :
    (w.acceptedPeer fd ss).chunks = w.chunks := by
  simp [acceptedPeer, Act.chunk?]

@[simp] theorem chunks_rehomed (newFd : Int) : (w.rehomed newFd).chunks = w.chunks := rfl

@[simp] theorem chunks_hungUp (e : Side) : (w.hungUp e).chunks = w.chunks :=
  w.chunks_setState .closed

end World

/-- Acts of a kind without chunks leave them as they are. -/
theorem Does.chunks {K : Act → Bool} {w w' : World} (h : Does K w w')
    (hK : ∀ bytes, K (.queued .client bytes) = false) : w'.chunks = w.chunks := by
  obtain ⟨acts, htrace, hacts⟩ := h.trace
  have hnil : acts.filterMap Act.chunk? = [] := by
    refine List.filterMap_eq_nil_iff.mpr fun a ha => ?_
    unfold Act.chunk?
    split
    · have hin := hacts _ ha
      rw [hK] at hin
      cases hin
    · rfl
  rw [World.chunks, htrace, List.filterMap_append, hnil, List.append_nil, World.chunks]

/-! ### At most one success reply -/

/-- Chunks that are neither the head of a success reply nor its address type. -/
def Plain (chunks : List (List UInt8)) : Prop := ∀ b ∈ chunks, b.length ≠ 1 ∧ b.length ≠ 3

theorem Plain.nil : Plain [] := fun b hb => by cases hb

theorem Plain.append {l l' : List (List UInt8)} (h : Plain l) (h' : Plain l') : Plain (l ++ l') :=
  fun b hb => (List.mem_append.mp hb).elim (h b) (h' b)

theorem Plain.not_mem {l : List (List UInt8)} (h : Plain l) : successHead ∉ l :=
  fun hin => (h _ hin).2 rfl

/-- Between `w` and `w'` no success reply is queued, or one with an address for which `P`
holds, perhaps with other replies around it. -/
def Replied (P : Option ReplyAddr → Prop) (w w' : World) : Prop :=
  (∃ l, Plain l ∧ w'.chunks = w.chunks ++ l) ∨
    ∃ a l l', P a ∧ Plain l ∧ Plain l' ∧
      w'.chunks = w.chunks ++ (l ++ successHead :: (addrChunks a ++ l'))

namespace Replied

variable {P Q : Option ReplyAddr → Prop} {w w₁ w' : World}

/-- Nothing was stored into `client_out`. -/
theorem of_eq (h : w'.chunks = w.chunks) : Replied P w w' :=
  .inl ⟨[], .nil, by rw [h, List.append_nil]⟩

theorem mono (h : Replied P w w') (hPQ : ∀ a, P a → Q a) : Replied Q w w' := by
  rcases h with h | ⟨a, l, l', ha, h⟩
  · exact .inl h
  · exact .inr ⟨a, l, l', hPQ a ha, h⟩

/-- Plain replies before. -/
theorem after (h : Replied P w₁ w') (hbefore : Replied (fun _ => False) w w₁) : Replied P w w' := by
  rcases hbefore with ⟨l₁, hl₁, heq₁⟩ | ⟨a, l, l', ha, -⟩
  · rcases h with ⟨l, hl, heq⟩ | ⟨a, l, l', ha, hl, hl', heq⟩
    · exact .inl ⟨l₁ ++ l, hl₁.append hl, by rw [heq, heq₁, List.append_assoc]⟩
    · refine .inr ⟨a, l₁ ++ l, l', ha, hl₁.append hl, hl', ?_⟩
      rw [heq, heq₁, List.append_assoc, List.append_assoc]
  · exact ha.elim

/-- Plain replies behind. -/
theorem andThen (h : Replied P w w₁) (hafter : Replied (fun _ => False) w₁ w') :
    Replied P w w' := by
  rcases hafter with ⟨l₁, hl₁, heq₁⟩ | ⟨a, l, l', ha, -⟩
  · rcases h with ⟨l, hl, heq⟩ | ⟨a, l, l', ha, hl, hl', heq⟩
    · exact .inl ⟨l ++ l₁, hl.append hl₁, by rw [heq₁, heq, List.append_assoc]⟩
    · refine .inr ⟨a, l, l' ++ l₁, ha, hl, hl'.append hl₁, ?_⟩
      simp [heq₁, heq, List.append_assoc]
  · exact ha.elim

end Replied

section Handlers

variable {cfg : Configs} {w w₁ w' : World} {e : Side} {ev : Events} {f : Option Fault}
  {P : Option ReplyAddr → Prop}

theorem plain_errReply (rep : UInt8) : Plain [errReply rep] := by
  intro b hb
  obtain rfl := List.mem_singleton.mp hb
  simp

theorem errReplied_chunks (hroom : 10 ≤ (w.shared.out .client).free) :
    w.errReplied.chunks = w.chunks ++ [errReply (normRep w.info.rep)] := by
  rw [World.errReplied, World.chunks_setState, World.chunks_watchSend, World.chunks_queue]
  · rfl
  · exact hroom

theorem queues_errReplied (hroom : 10 ≤ (w.shared.out .client).free) : Replied P w w.errReplied :=
  .inl ⟨_, plain_errReply (normRep w.info.rep), errReplied_chunks hroom⟩

theorem ReplyLost.queues (h : ReplyLost w e w') : Replied P w w' := by
  cases h with
  | noRoom hroom => exact .of_eq (by simp)
  | unwatched hroom hmod =>
    refine .inl ⟨_, plain_errReply (normRep w.info.rep), ?_⟩
    rw [World.chunks_hungUp, World.chunks_popMod, World.chunks_queue]
    · rfl
    · exact hroom

theorem ReplyWithErr.queues (h : ReplyWithErr w e w') : Replied P w w' := by
  cases h with
  | replied hroom hmod => exact queues_errReplied hroom
  | lost h => exact h.queues

/-- A handler that ends in an error reply. -/
theorem Replied.answer {rep : UInt8} (h : Replied P w w₁)
    (hreply : ReplyWithErr (w₁.setRep rep) e w') :
    Replied P w w' := by
  refine h.andThen (hreply.queues.after (.of_eq ?_))
  rw [World.chunks_setRep]

/-- What `finish_reply` stores, with room for it. -/
theorem FinishReply.chunks {a : Option ReplyAddr} {r : Bool} (hw : Open w)
    (hused : (w.shared.out .client).used ≤ 1000) (hlen : ∀ a', a = some a' → a'.octets.length ≤ 19)
    (h : FinishReply w a r w') : w'.chunks = w.chunks ++ addrChunks a := by
  have hqueue : ∀ a', a = some a' → (w.queueAddr a').chunks = w.chunks ++ a'.chunks := by
    intro a' ha
    have hoctets := hlen a' ha
    simp only [ReplyAddr.octets, List.length_cons, List.length_append] at hoctets
    have hatyp := w.queue_used_le .client [a'.atyp]
    have haddr := (w.queue .client [a'.atyp]).queue_used_le .client a'.addr
    have hw₁ : Open (w.queue .client [a'.atyp]) := by simpa using hw
    have hw₂ : Open ((w.queue .client [a'.atyp]).queue .client a'.addr) := by simpa using hw
    simp only [List.length_singleton] at hatyp
    rw [World.queueAddr, World.chunks_queue, World.chunks_queue, World.chunks_queue]
    · simp [ReplyAddr.chunks]
    · rw [World.free_of_open _ hw, List.length_singleton, outbuffsize]
      omega
    · rw [World.free_of_open _ hw₁, outbuffsize]
      omega
    · rw [World.free_of_open _ hw₂, outbuffsize]
      omega
  cases h with
  | skipped => simp [addrChunks]
  | sent hmod => exact hqueue _ rfl
  | unwatched hmod => exact hqueue _ rfl

/-- The head of a success reply. -/
theorem Open.chunks_queueHead (hw : Open w) (hused : (w.shared.out .client).used ≤ 900) :
    (w.queueHead repSuccess).chunks = w.chunks ++ [successHead] ∧
      ((w.queueHead repSuccess).shared.out .client).used ≤ 1000 := by
  have hle := w.queue_used_le .client [socks5Version, repSuccess, socks5Resv]
  refine ⟨w.chunks_queue ?_, hle.trans ?_⟩
  · rw [World.free_of_open _ hw, outbuffsize]
    simp only [List.length_cons, List.length_nil]
    omega
  · simp only [List.length_cons, List.length_nil]
    omega

/-- A success reply: its head, and its address behind it. -/
theorem Replied.success {a : Option ReplyAddr} {r : Bool} (hw₁ : Open w₁)
    (hhead : w₁.chunks = w.chunks ++ [successHead] ∧ (w₁.shared.out .client).used ≤ 1000)
    (hlen : ∀ a', a = some a' → a'.octets.length ≤ 19) (h : FinishReply w₁ a r w') (ha : P a) :
    Replied P w w' := by
  refine .inr ⟨a, [], [], ha, .nil, .nil, ?_⟩
  rw [h.chunks hw₁ hhead.2 hlen, hhead.1]
  simp

/-! ### Commands -/

theorem OpenConnect.chunks {dst : SockAddr} {r : Option Int} (h : OpenConnect w dst r w') :
    w'.chunks = w.chunks := by
  cases h <;> simp [Act.chunk?]

theorem FirstAttempt.chunks {r : Option Int} (h : FirstAttempt w r w') : w'.chunks = w.chunks := by
  cases h with
  | unsupported hsa => rfl
  | literal hsa h => exact h.chunks
  | resolvedFailed hsa hai h => exact h.chunks
  | resolved hsa hai h => simpa using h.chunks

theorem InitConnect.chunks (h : InitConnect w w') : w'.chunks = w.chunks := by
  cases h with
  | noAddr hai hsa => simp [Act.chunk?]
  | notOpened h => simpa [Act.chunk?] using h.chunks
  | noMemory h hmalloc => simpa [Act.chunk?] using h.chunks
  | unwatched h => simpa [Act.chunk?, World.connectStarted] using h.chunks
  | connecting h => simpa [Act.chunk?, World.connectStarted] using h.chunks

theorem InitListen.queues {g : InitFn} (hw : Open w) (hused : (w.shared.out .client).used ≤ 900)
    (h : InitListen cfg g w w') :
    Replied (fun a => (w.info.sa ≠ none ∨ w.info.ai ≠ []) ∧ ListenReply cfg w g a) w w' := by
  have hreply : ∀ {sfd a r w₁}, w.info.sa ≠ none ∨ w.info.ai ≠ [] → w.fds sfd = none →
      ListenReply cfg w g a → FinishReply (w.listenStarted g sfd) a r w₁ →
      Replied (fun a => (w.info.sa ≠ none ∨ w.info.ai ≠ []) ∧ ListenReply cfg w g a) w w₁ := by
    intro sfd a r w₁ haddr hnew ha h
    have hopened : Open ((w.emit (.invoked g)).opened sfd (g == .bind)) :=
      (open_emit.mpr hw).opened hnew _
    have hlinked := hopened.linkServer (hw.ne_client hnew)
    have hstarted : Open (((((w.emit (.invoked g)).opened sfd (g == .bind)).linkServer sfd)).setRep
        repSuccess) := open_setRep.mpr hlinked
    refine Replied.success ?_ ?_ ?_ h ⟨haddr, ha⟩
    · simpa [World.listenStarted, World.queueHead] using hlinked
    · simpa [World.listenStarted, Act.chunk?] using hstarted.chunks_queueHead hused
    · rintro a' rfl
      exact ha.length
  cases h with
  | notOpened => exact .of_eq (by simp [Act.chunk?])
  | failed haddr hnew hrep => exact .of_eq (by simp [Act.chunk?])
  | unnamed haddr hnew => exact .of_eq (by simp [Act.chunk?])
  | unanswered haddr hnew ha h => exact (hreply haddr hnew ha h).andThen (.of_eq rfl)
  | unlistened haddr hnew ha h => exact (hreply haddr hnew ha h).andThen (.of_eq (by simp))
  | listening haddr hnew ha h => exact (hreply haddr hnew ha h).andThen (.of_eq (by simp))

/-- What the success reply to the command of `w` says. -/
def Announces (cfg : Configs) (w : World) (a : Option ReplyAddr) : Prop :=
  ∃ g : InitFn, w.info.cmd = g.cmd ∧ ListenReply cfg w g a

theorem Init.queues (hw : Open w) (hused : (w.shared.out .client).used ≤ 900) (h : Init cfg w w') :
    Replied (fun a => (w.info.sa ≠ none ∨ w.info.ai ≠ []) ∧ Announces cfg w a) w w' := by
  cases h with
  | connect hcmd hallow h => exact .of_eq h.chunks
  | bind hcmd hallow h => exact (h.queues hw hused).mono fun a ha => ⟨ha.1, .bind, hcmd, ha.2⟩
  | udpa hcmd hallow h => exact (h.queues hw hused).mono fun a ha => ⟨ha.1, .udpa, hcmd, ha.2⟩

theorem CommandDone.queues {o : Obj} (hw : Open w) (hused : (w.shared.out .client).used ≤ 900)
    (h : CommandDone cfg w o f w') :
    Replied (fun a => (w.info.sa ≠ none ∨ w.info.ai ≠ []) ∧ Announces cfg w a) w w' := by
  cases h with
  | refusedLost hno h => exact h.queues.after (.of_eq (by simp))
  | refused hno hroom hmod h =>
    have hset : Replied (fun _ => False) w (w.setRep repBadcomm) := .of_eq rfl
    have hreplied : Replied (fun _ => False) w (w.setRep repBadcomm).errReplied :=
      (queues_errReplied (w := w.setRep repBadcomm) hroom).after hset
    exact h.queues.after hreplied
  | started h hrep => exact h.queues hw hused
  | failed h hrep hreply => exact (h.queues hw hused).andThen hreply.queues

/-- A failed lookup leaves no address, and so no success reply. -/
theorem ResolverReturned.queues (hw : Open w) (hused : (w.shared.out .client).used ≤ 800)
    (hsa : w.info.sa = none) (hai : w.info.resolverRet ≠ 0 → w.info.ai = [])
    (h : ResolverReturned cfg w f w') : Replied (Announces cfg w) w w' := by
  cases h with
  | lost hret h => exact h.queues.after (.of_eq (by simp))
  | failed hret hroom hmod h =>
    have hset : Open (w.setRep repGenfail) := open_setRep.mpr hw
    have hrep : Replied (fun _ => False) w (w.setRep repGenfail) := .of_eq rfl
    have hreplied : Replied (fun _ => False) w (w.setRep repGenfail).errReplied :=
      (queues_errReplied (w := w.setRep repGenfail) hroom).after hrep
    have hused' := errReplied_used (w := w.setRep repGenfail)
    have hnone := hai hret
    simp only [World.setRep_shared] at hused'
    refine ((h.queues (open_errReplied hset) (by omega)).mono fun a ha => ?_).after hreplied
    simp [World.errReplied, hsa, hnone] at ha
  | resolved hret h => exact (h.queues hw (by omega)).mono fun a ha => ha.2

/-- The request that the handler of `w` carries out: the one it has stored when the resolver has
answered, else the one in `server_out`. -/
def World.asking (w : World) : Info :=
  if w.info.resolverRet = -1 then
    { w.info with
      cmd := reqAt (w.gathered.take 300) 1
      atyp := reqAt (w.gathered.take 300) 3
      sa := some (reqAddr (w.gathered.take 300)) }
  else w.info

/-- Only the request and the socket's name matter for it. -/
theorem Announces.congr {a : Option ReplyAddr} (h : Announces cfg w a)
    (hcmd : w'.info.cmd = w.info.cmd) (haf : w'.info.af = w.info.af)
    (hname : w'.ans.getsockname = w.ans.getsockname) : Announces cfg w' a := by
  obtain ⟨g, hg, ha⟩ := h
  refine ⟨g, hcmd.trans hg, ?_⟩
  cases ha with
  | bind hadv hss => exact .bind (haf ▸ hadv) (hname ▸ hss)
  | udpa hadv => exact .udpa (haf ▸ hadv)

theorem RunRequest.queues {req : List UInt8} (hw : Open w)
    (hused : (w.shared.out .client).used ≤ 800) (h : RunRequest cfg w req f w') :
    Replied (Announces cfg (w.addrStored req)) w w' := by
  have hstored : Open ((w.addrStored req).emit (.firewall (w.addrStored req).info)) := by
    simpa using hw.addrStored req
  have hkeep : ∀ {P}, Replied P w ((w.addrStored req).emit (.firewall (w.addrStored req).info)) :=
    .of_eq (by simp [World.addrStored, World.setMem, World.chunks, Act.chunk?])
  cases h with
  | domain hatyp => exact .of_eq (does_asked.chunks fun _ => rfl)
  | noMemory hatyp hmalloc => exact .of_eq rfl
  | dropped hatyp hfirewall h => exact hkeep.answer h
  | passed hatyp hfirewall h =>
    refine ((h.queues hstored (hused.trans (by decide))).mono fun a ha => ?_).after hkeep
    exact ha.2.congr rfl rfl rfl

theorem CommandRequest.queues {req : List UInt8} (hw : Open w)
    (hused : (w.shared.out .client).used ≤ 800) (h : CommandRequest cfg w req f w') :
    Replied (Announces cfg ((w.commandStored req).addrStored req)) w w' := by
  have hkeep : ∀ {P}, Replied P w (w.commandStored req) := .of_eq rfl
  have hstored : Open (w.commandStored req) := hw.setInfo rfl rfl
  cases h with
  | short hlen => exact .of_eq rfl
  | badAtyp hlen htotal h => exact Replied.answer (.of_eq rfl) h
  | part hlen htotal hpart => exact .of_eq rfl
  | badVersion hlen htotal hcomplete hversion => exact .of_eq (by simp [World.commandStored])
  | run hlen htotal hcomplete hversion h =>
    exact (h.queues hstored hused).after hkeep

theorem Recv.chunks {fd : Int} {n : Nat} {r : Option (List UInt8)} (h : Recv w fd n r w') :
    w'.chunks = w.chunks := by
  cases h with
  | failed => rfl
  | zero hn => rfl
  | ended hsk hempty hfin => simp [Act.chunk?]
  | data hsk hinbox hne hle => simp [World.chunks, Act.chunk?]

theorem WaitingCommand.queues (hw : Open w) (hused : (w.shared.out .client).used ≤ 800)
    (hsa : w.info.sa = none)
    (hai : w.info.resolverRet ≠ -1 → w.info.resolverRet ≠ 0 → w.info.ai = [])
    (h : WaitingCommand cfg w e ev f w') : Replied (Announces cfg (w.setInfo w.asking)) w w' := by
  cases h with
  | idle hunwanted => exact .of_eq rfl
  | resolver hret h =>
    refine (h.queues hw hused hsa (hai hret)).mono fun a ha => ?_
    rw [World.asking, if_neg hret]
    exact ha
  | ended hret hrecv hr => exact .of_eq (by simp [hrecv.chunks])
  | @data bytes got w₁ _ _ hret hrecv hgot h =>
    have hinfo := hrecv.info
    have hans : w₁.ans = w.ans := by
      obtain ⟨fds, trace, rfl⟩ := hrecv.frame
      rfl
    obtain rfl : got = w.gathered := hgot.trans hrecv.gathered
    refine Replied.after ((h.queues (by simpa using hrecv.open hw) ?_).mono fun a ha => ?_) ?_
    · simpa [hrecv.shared] using hused
    · refine ha.congr ?_ ?_ ?_ <;> simp [World.asking, hret, Info.af, hans]
    · exact .of_eq (by simp [hrecv.chunks])

/-! ### The server's descriptor -/

theorem ConnectFailed.queues {error : BitVec 32} (h : ConnectFailed w error w') :
    Replied P w w' := by
  have hnext : ∀ {P}, Replied P w w.nextAddr := .of_eq rfl
  cases h with
  | retry hlen hget => exact .of_eq (by simp [World.nextAddr, Act.chunk?])
  | exhausted hlen hget h => exact hnext.answer h
  | single hlen h => exact Replied.answer (.of_eq rfl) h

/-- The reply to CONNECT says the address of the socket's own end. -/
theorem Connecting.queues (hw : Open w) (hused : (w.shared.out .client).used ≤ 900)
    (h : Connecting w e ev w') :
    Replied (fun a => ∃ ss, w.ans.getsockname = some ss ∧ a = ss.replyAddr ss.port) w w' := by
  have hhead : ∀ ss, (w.connectedTo ss).chunks = w.chunks ++ [successHead] ∧
      ((w.connectedTo ss).shared.out .client).used ≤ 1000 := fun ss => by
    have hnoted : Open ((w.setRep repSuccess).noted ss) := (open_setRep.mpr hw).noted ss
    simpa [World.connectedTo] using hnoted.chunks_queueHead hused
  have hreply : ∀ {ss a r w₁}, w.ans.getsockname = some ss → ss.replyAddr ss.port = a →
      FinishReply (w.connectedTo ss) a r w₁ →
      Replied (fun a => ∃ ss, w.ans.getsockname = some ss ∧ a = ss.replyAddr ss.port) w w₁ := by
    intro ss a r w₁ hname haddr h
    refine .success (hw.connectedTo ss) (hhead ss) ?_ h ⟨ss, hname, haddr.symm⟩
    rintro a' rfl
    exact SockAddr.replyAddr_length haddr
  cases h with
  | idle hidle => exact .of_eq rfl
  | unknown hso h => exact Replied.answer (.of_eq rfl) h
  | failed hso herr h => exact h.queues
  | unnamed hso hname h => exact Replied.answer (.of_eq rfl) h
  | oddFamily hso hname haddr h => exact (hreply hname haddr .skipped).andThen h.queues
  | unanswered hso hname haddr hr h => exact (hreply hname haddr hr).answer h
  | unwatched hso hname haddr hr hmod h =>
    refine ((hreply hname haddr hr).andThen (.of_eq ?_)).answer h
    cases hmod
    rfl
  | connected hso hname haddr hr hmod =>
    refine (hreply hname haddr hr).andThen (.of_eq ?_)
    cases hmod
    rfl

/-- The second reply to BIND says the address of the peer. -/
theorem BindListening.queues (hw : Open w) (hd : w.mem (.data .server) = .live)
    (hused : (w.shared.out .client).used ≤ 900) (h : BindListening w e ev w') :
    Replied (fun a => ∃ fd ss, w.ans.accept = some (fd, ss) ∧ a = ss.replyAddr ss.port) w w' := by
  have hpeer : ∀ {P fd ss}, Replied P w (w.acceptedPeer fd ss) := .of_eq (by simp)
  have hmoved : ∀ {P fd ss}, Replied P w ((w.acceptedPeer fd ss).rehomed fd) :=
    .of_eq (by simp)
  have hhead : ∀ {fd ss w₁}, w.fds fd = none →
      Added ((w.acceptedPeer fd ss).rehomed fd) fd (epollIn, some .server) true w₁ →
      Open ((w₁.setRep repSuccess).queueHead repSuccess) ∧
        ((w₁.setRep repSuccess).queueHead repSuccess).chunks = w.chunks ++ [successHead] ∧
        (((w₁.setRep repSuccess).queueHead repSuccess).shared.out .client).used ≤ 1000 := by
    intro fd ss w₁ hnew hadd
    have hopen : Open (w.acceptedPeer fd ss) :=
      Open.noted (open_emit.mpr (hw.setFd (hw.ne_client hnew) _)) ss
    have hset : Open (w₁.setRep repSuccess) :=
      open_setRep.mpr (hadd.open (hopen.rehomed (hw.ne_client hnew) hd))
    refine ⟨by simpa [World.queueHead] using hset, ?_⟩
    cases hadd
    simpa using hset.chunks_queueHead hused
  have hreply : ∀ {fd ss a r w₁ w₂}, w.ans.accept = some (fd, ss) → w.fds fd = none →
      Added ((w.acceptedPeer fd ss).rehomed fd) fd (epollIn, some .server) true w₁ →
      ss.replyAddr ss.port = a →
      FinishReply ((w₁.setRep repSuccess).queueHead repSuccess) a r w₂ →
      Replied (fun a => ∃ fd ss, w.ans.accept = some (fd, ss) ∧ a = ss.replyAddr ss.port) w w₂ := by
    intro fd ss a r w₁ w₂ hans hnew hadd haddr h
    obtain ⟨hopen, hchunks⟩ := hhead hnew hadd
    refine .success hopen hchunks ?_ h ⟨fd, ss, hans, haddr.symm⟩
    rintro a' rfl
    exact SockAddr.replyAddr_length haddr
  cases h with
  | idle hidle => exact .of_eq rfl
  | noPeer hnone h => exact Replied.answer (.of_eq rfl) h
  | noRequest hans hnew hreq h => exact hpeer.answer h
  | otherPeer hans hnew hreq hdiff h => exact hpeer.answer h
  | unwatched hans hnew hreq hsame he hadd h => exact hmoved.answer h
  | oddFamily hans hnew hreq hsame he hadd haddr h =>
    exact (hreply hans hnew hadd haddr .skipped).answer h
  | unanswered hans hnew hreq hsame he hadd haddr hr h =>
    exact (hreply hans hnew hadd haddr hr).answer h
  | accepted hans hnew hreq hsame he hadd haddr hr =>
    exact (hreply hans hnew hadd haddr hr).andThen (.of_eq (by simp))

end Handlers

end Socksprox
