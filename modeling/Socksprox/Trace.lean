import Socksprox.Acts
import Socksprox.Sane
import Socksprox.Lib.History

/-!
What a trace says was received, sent and queued, and how effects and handlers extend it.
-/

namespace Socksprox

/-! ### Bytes -/

/-- The bytes an act received from a descriptor. -/
def Act.bytesFrom (fd : Int) : Act → List UInt8
  | .recv fd' bytes => if fd' = fd then bytes else []
  | _ => []

/-- The bytes an act sent to a descriptor. -/
def Act.bytesTo (fd : Int) : Act → List UInt8
  | .sent fd' bytes => if fd' = fd then bytes else []
  | _ => []

/-- The bytes an act stored into the output buffer of an end. -/
def Act.bytesQueued (s : Side) : Act → List UInt8
  | .queued s' bytes => if s' = s then bytes else []
  | _ => []

def bytesFrom (fd : Int) (trace : List Act) : List UInt8 := trace.flatMap (Act.bytesFrom fd)

def bytesTo (fd : Int) (trace : List Act) : List UInt8 := trace.flatMap (Act.bytesTo fd)

def bytesQueued (s : Side) (trace : List Act) : List UInt8 := trace.flatMap (Act.bytesQueued s)

@[simp] theorem bytesFrom_append (fd : Int) (t t' : List Act) :
    bytesFrom fd (t ++ t') = bytesFrom fd t ++ bytesFrom fd t' := List.flatMap_append

@[simp] theorem bytesTo_append (fd : Int) (t t' : List Act) :
    bytesTo fd (t ++ t') = bytesTo fd t ++ bytesTo fd t' := List.flatMap_append

@[simp] theorem bytesQueued_append (s : Side) (t t' : List Act) :
    bytesQueued s (t ++ t') = bytesQueued s t ++ bytesQueued s t' := List.flatMap_append

@[simp] theorem bytesFrom_nil (fd : Int) : bytesFrom fd [] = [] := rfl

@[simp] theorem bytesTo_nil (fd : Int) : bytesTo fd [] = [] := rfl

@[simp] theorem bytesQueued_nil (s : Side) : bytesQueued s [] = [] := rfl

@[simp] theorem bytesFrom_cons (fd : Int) (a : Act) (t : List Act) :
    bytesFrom fd (a :: t) = a.bytesFrom fd ++ bytesFrom fd t := List.flatMap_cons

@[simp] theorem bytesTo_cons (fd : Int) (a : Act) (t : List Act) :
    bytesTo fd (a :: t) = a.bytesTo fd ++ bytesTo fd t := List.flatMap_cons

@[simp] theorem bytesQueued_cons (s : Side) (a : Act) (t : List Act) :
    bytesQueued s (a :: t) = a.bytesQueued s ++ bytesQueued s t := List.flatMap_cons

/-! ### Acts that are not of these kinds -/

namespace Does

variable {K : Act → Bool} {w w' : World} {fd : Int} {s : Side}

/-- Bytes that no act of the kind contributes to. -/
theorem flatMap_eq {β : Type} (h : Does K w w') (f : Act → List β)
    (hK : ∀ a, K a = true → f a = []) : w'.trace.flatMap f = w.trace.flatMap f := by
  obtain ⟨acts, htrace, hacts⟩ := h.trace
  have hnil : acts.flatMap f = [] := List.flatMap_eq_nil_iff.mpr fun a ha => hK a (hacts a ha)
  rw [htrace, List.flatMap_append, hnil, List.append_nil]

theorem bytesFrom (h : Does K w w') (hK : ∀ bytes, K (.recv fd bytes) = false) :
    bytesFrom fd w'.trace = bytesFrom fd w.trace :=
  h.flatMap_eq (Act.bytesFrom fd) fun a ha => by
    cases a with
    | recv fd' bytes =>
      rw [Act.bytesFrom, if_neg]
      rintro rfl
      simp [hK] at ha
    | _ => rfl

theorem bytesTo (h : Does K w w') (hK : ∀ bytes, K (.sent fd bytes) = false) :
    bytesTo fd w'.trace = bytesTo fd w.trace :=
  h.flatMap_eq (Act.bytesTo fd) fun a ha => by
    cases a with
    | sent fd' bytes =>
      rw [Act.bytesTo, if_neg]
      rintro rfl
      simp [hK] at ha
    | _ => rfl

/-- Acts of the kind satisfy `P` whatever came before them. -/
theorem always {P : List Act → Act → Prop} (h : Does K w w') (hall : Lib.Always P w.trace)
    (hK : ∀ before a, K a = true → P before a) : Lib.Always P w'.trace := by
  obtain ⟨acts, htrace, hacts⟩ := h.trace
  rw [htrace]
  exact hall.append fun before a ha => hK before a (hacts a ha)

end Does

/-! ### Receiving -/

section Receiving

variable {w w₁ : World} {fd : Int} {n : Nat} {r : Option (List UInt8)} {bytes : List UInt8}

/-- What a receive adds to the trace. -/
theorem Recv.bytesFrom (h : Recv w fd n (some bytes) w₁) :
    bytesFrom fd w₁.trace = bytesFrom fd w.trace ++ bytes := by
  cases h with
  | zero hn => simp
  | ended hsk hempty hfin => simp [Act.bytesFrom]
  | data hsk hinbox hne hle => simp [Act.bytesFrom]

theorem Recv.length_le (h : Recv w fd n (some bytes) w₁) : bytes.length ≤ n := by
  cases h with
  | zero hn => exact Nat.zero_le _
  | ended hsk hempty hfin => exact Nat.zero_le _
  | data hsk hinbox hne hle => exact hle

theorem Recv.bytesTo (h : Recv w fd n r w₁) (fd' : Int) :
    bytesTo fd' w₁.trace = bytesTo fd' w.trace := by
  cases h with
  | failed => rfl
  | zero hn => rfl
  | ended hsk hempty hfin => simp [Act.bytesTo]
  | data hsk hinbox hne hle => simp [Act.bytesTo]

end Receiving

@[simp] theorem World.queue_bytesFrom (w : World) (s : Side) (bytes : List UInt8) (fd : Int) :
    bytesFrom fd (w.queue s bytes).trace = bytesFrom fd w.trace := by
  unfold World.queue
  split
  · simp [Act.bytesFrom]
  · rfl

@[simp] theorem World.queue_bytesTo (w : World) (s : Side) (bytes : List UInt8) (fd : Int) :
    bytesTo fd (w.queue s bytes).trace = bytesTo fd w.trace := by
  unfold World.queue
  split
  · simp [Act.bytesTo]
  · rfl

/-! ### Where handlers end -/

section Ends

variable {cfg : Configs} {w w' : World} {e : Side} {ev : Events} {f : Option Fault}

theorem ReplyWithErr.state (h : ReplyWithErr w e w') :
    w'.shared.state = .sendingReply ∨ w'.shared.state = .closed := by
  cases h with
  | replied hroom hmod => exact .inl rfl
  | lost h => cases h <;> exact .inr rfl

theorem ReplyLost.state (h : ReplyLost w e w') : w'.shared.state = .closed := by
  cases h <;> rfl

/-- A command that was started without an error waits for its server, or its reply is on the way. -/
theorem Init.done (hw : Open w) (h : Init cfg w w')
    (hrep : w'.info.rep = repUnset ∨ w'.info.rep = repSuccess) :
    w'.shared.state = .connecting ∨ w'.shared.state = .sendingReply := by
  have hne : ¬ w'.info.rep = repGenfail ∧ ¬ w'.info.rep = repBadatyp := by
    rcases hrep with hrep | hrep <;> rw [hrep] <;> decide
  have hlisten : ∀ {g}, InitListen cfg g w w' → w'.shared.state = .sendingReply := by
    intro g h
    rcases h.done hw with hbad | ⟨hs, -⟩
    · tauto
    · exact hs
  cases h with
  | connect hcmd hallow h =>
    rcases h.done hw with hbad | ⟨hs, -⟩
    · exact absurd hbad hne.1
    · exact .inl hs
  | bind hcmd hallow h => exact .inr (hlisten h)
  | udpa hcmd hallow h => exact .inr (hlisten h)

/-- A command that was carried out or refused is over. -/
theorem CommandDone.state {o : Obj} (hw : Open w) (h : CommandDone cfg w o f w') :
    w'.shared.state = .connecting ∨ w'.shared.state = .sendingReply ∨
      w'.shared.state = .closed := by
  cases h with
  | refusedLost hno h => exact .inr (.inr h.state)
  | refused hno hroom hmod h => exact .inr h.state
  | started h hrep => exact (h.done hw hrep).imp_right .inl
  | failed h hrep hreply => exact .inr hreply.state

theorem ResolverReturned.state (hw : Open w) (h : ResolverReturned cfg w f w') :
    w'.shared.state = .connecting ∨ w'.shared.state = .sendingReply ∨
      w'.shared.state = .closed := by
  cases h with
  | lost hret h => exact .inr (.inr h.state)
  | failed hret hroom hmod h => exact h.state (open_errReplied (open_setRep.mpr hw))
  | resolved hret h => exact h.state hw

theorem CommandDone.late {o : Obj} (hw : Open w) (h : CommandDone cfg w o f w') :
    w'.shared.state.early = false := by
  rcases h.state hw with hs | hs | hs <;> simp [hs]

theorem ResolverReturned.late (hw : Open w) (h : ResolverReturned cfg w f w') :
    w'.shared.state.early = false := by
  rcases h.state hw with hs | hs | hs <;> simp [hs]

/-- A request is awaited on, or looked up, or over. -/
theorem WaitingCommand.state (hw : Open w) (hs : w.shared.state = .waitingCommand)
    (h : WaitingCommand cfg w e ev f w') :
    (w'.shared.state = .waitingCommand ∨ w'.shared.state = .asyncDns) ∨
      w'.shared.state = .connecting ∨ w'.shared.state = .sendingReply ∨
        w'.shared.state = .closed := by
  cases h with
  | idle hunwanted => exact .inl (.inl hs)
  | resolver hret h => exact .inr (h.state hw)
  | ended hret hrecv hr => exact .inr (.inr (.inr rfl))
  | @data bytes got w₁ _ _ hret hrecv hgot h =>
    have hs₁ : (w₁.queue .server bytes).shared.state = .waitingCommand := by
      simpa [hrecv.shared] using hs
    have hw₁ : Open (w₁.queue .server bytes) := by simpa using hrecv.open hw
    cases h with
    | short hlen => exact .inl (.inl hs₁)
    | badAtyp hlen htotal h => exact .inr (.inr h.state)
    | part hlen htotal hpart => exact .inl (.inl hs₁)
    | badVersion hlen htotal hcomplete hversion => exact .inr (.inr (.inr rfl))
    | run hlen htotal hcomplete hversion h =>
      have hw₂ : Open ((w₁.queue .server bytes).commandStored (got.take 300)) :=
        hw₁.setInfo rfl rfl
      cases h with
      | domain hatyp => exact .inl (.inr rfl)
      | noMemory hatyp hmalloc => exact .inl (.inl hs₁)
      | dropped hatyp hfirewall h => exact .inr (.inr h.state)
      | passed hatyp hfirewall h =>
        exact .inr (h.state (by simpa using hw₂.addrStored (got.take 300)))

theorem WaitingMethods.state (hs : w.shared.state = .waitingMethods)
    (h : WaitingMethods cfg w e ev w') :
    w'.shared.state = .waitingMethods ∨ w'.shared.state = .sendingMethod ∨
      w'.shared.state = .closed := by
  cases h with
  | idle hunwanted => exact .inl hs
  | ended hrecv hr => exact .inr (.inr rfl)
  | part hrecv hgot hpart => exact .inl (by simpa [hrecv.shared] using hs)
  | badVersion hrecv hgot hcomplete hversion => exact .inr (.inr rfl)
  | unwatched hrecv hgot hcomplete hversion hmod => exact .inr (.inr rfl)
  | chosen hrecv hgot hcomplete hversion hmod => exact .inr (.inl rfl)

theorem SendingMethod.state (hs : w.shared.state = .sendingMethod) (h : SendingMethod w e ev w') :
    w'.shared.state = .sendingMethod ∨ w'.shared.state = .waitingCommand ∨
      w'.shared.state = .closed := by
  cases h with
  | idle hunwanted => exact .inl hs
  | stopped h =>
    cases h with
    | failed => exact .inr (.inr rfl)
    | part hk => exact .inl hs
    | unwatched hmod => exact .inr (.inr rfl)
  | refused hmod hmethod => exact .inr (.inr rfl)
  | accepted hmod hmethod => exact .inr (.inl rfl)

/-- Replies are sent in states that are not early, and after them. -/
theorem SendingReply.late (hs : w.shared.state.early = false) (h : SendingReply w e ev w') :
    w'.shared.state.early = false := by
  cases h with
  | idle hidle => exact hs
  | stopped h =>
    cases h with
    | failed => rfl
    | part hk => exact hs
    | unwatched hmod => rfl
  | refused hmod hrep => rfl
  | connected hmod hrep hcmd => rfl
  | listening hmod hrep hcmd hstate => rfl
  | associated hmod hrep hcmd => rfl
  | odd hmod hrep hcmd hbind => exact hs

/-- Handlers of a kind that holds no early state stay out of those. -/
theorem Does.late {K : Act → Bool} (h : Does K w w') (hs : w.shared.state.early = false)
    (hK : ∀ st, st.early = true → K (.state st) = false) : w'.shared.state.early = false := by
  rcases h.state with heq | hin
  · rw [heq, hs]
  · by_contra hearly
    rw [hK _ (by simpa using hearly)] at hin
    cases hin

/-- The relay is entered from the states that send replies only. -/
theorem Handled.entered (hw : Open w) (h : Handled cfg w e ev f w')
    (hfull : w'.shared.state = .full ∨ w'.shared.state = .fullUdpa)
    (hnew : w.shared.state ≠ w'.shared.state) :
    w.shared.state.replying = true ∧ SendingReply w e ev w' := by
  have hdoes : ∀ {K : Act → Bool}, Does K w w' → K (.state .full) = false →
      K (.state .fullUdpa) = false → w.shared.state.replying = true ∧ SendingReply w e ev w' := by
    intro K hdoes hK hK'
    rcases hdoes.state with heq | hin
    · exact absurd heq.symm hnew
    · rcases hfull with hs | hs <;> simp [hs, hK, hK'] at hin
  cases h with
  | still hstate => exact absurd rfl hnew
  | waitingMethods hstate h => rcases h.state hstate with hs | hs | hs <;> simp [hs] at hfull
  | sendingMethod hstate h => rcases h.state hstate with hs | hs | hs <;> simp [hs] at hfull
  | waitingCommand hstate h =>
    rcases h.state hw hstate with (hs | hs) | hs | hs | hs <;> simp [hs] at hfull
  | sendingReply hstate h =>
    exact ⟨by rcases hstate with hs | hs <;> simp [hs], h⟩
  | connecting hstate h => exact hdoes h.does rfl rfl
  | bindListening hstate h => exact hdoes h.does rfl rfl
  | full hstate h =>
    rcases h.does.state with heq | hin
    · exact absurd heq.symm hnew
    · rcases hfull with hs | hs <;> simp [hs, Act.isRelay] at hin
  | halfClose hstate => rcases hfull with hs | hs <;> cases hs
  | closed hstate => exact absurd rfl hnew

/-- The same for any input. -/
theorem Stepped.entered {i : Input} (hs : Sane w) (h : Stepped cfg w i f w')
    (hfull : w'.shared.state = .full ∨ w'.shared.state = .fullUdpa)
    (hnew : w.shared.state ≠ w'.shared.state) :
    ∃ rest ans e ev, Sane (w.taken rest ans) ∧ Open (w.taken rest ans) ∧
      w.shared.state.replying = true ∧ SendingReply (w.taken rest ans) e ev w' := by
  cases h.moved with
  | idle hcore =>
    simp only [World.core, Prod.mk.injEq] at hcore
    exact absurd hcore.2.1.symm hnew
  | answered hdns => exact absurd rfl hnew
  | @handled ans rest _ _ _ _ _ hpending hw hd hh =>
    have h := hh.entered hw hfull hnew
    exact ⟨rest, ans, _, _, hs.taken hpending ans, hw, h⟩
  | resumed hpending hw hdns hh =>
    rcases hh.state (hw.resumed _) rfl with (hst | hst) | hst | hst | hst <;> simp [hst] at hfull

end Ends

end Socksprox
