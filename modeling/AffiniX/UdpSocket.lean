import AffiniX.Framers
import AffiniX.ReadTurns

/-! The readiness event of a UDP socket. -/
namespace AffiniX
open List
namespace UdpSocket
variable {A M : Type} {framer : Framer M}

/-- The loop of `deliver` over what is left of a datagram, with the batch so far. -/
def deliver (framer : Framer M) (capacity : Nat) : (fuel : Nat) → Bytes → List M → Option (List (Output M))
  | 0, _, _ => none
  | fuel+1, bytes, msgs =>
    let last := if msgs.isEmpty then [] else [.onMessages msgs]
    if bytes.isEmpty then some last
    else
      match framer bytes with
      | .message message consumed =>
        let msgs := msgs++[message]
        if msgs.length = capacity then
          (deliver framer capacity fuel (bytes.drop consumed) []).map (.onMessages msgs::·)
        else deliver framer capacity fuel (bytes.drop consumed) msgs
      | .needMore _ => some (.onError ⟨17,.frame⟩::last)
      | .error error => some (.onError error::last)

lemma deliver_parses (progresses : framer.Progresses) (capacity : Nat) {fuel : Nat} {bytes : Bytes} (msgs : List M)
    (enough : bytes.length < fuel) : ∃ outs ms rest, deliver framer capacity fuel bytes msgs = some outs ∧
    Framer.Framed framer bytes ms rest ∧ framer.Stuck rest ∧ outs.flatMap Output.messages = msgs++ms ∧
    (outs.filterMap Output.fault).length = if rest = [] then 0 else 1 := by
  induction fuel generalizing bytes msgs with
  | zero => cases enough
  | succ fuel ih =>
    unfold deliver
    dsimp only
    generalize flush : (if msgs.isEmpty then _ else _) = last
    have all : last.flatMap Output.messages = msgs ∧ last.filterMap Output.fault = [] := by
      subst flush
      cases msgs <;> simp [Output.messages,Output.fault]
    split
    next none =>
      obtain rfl := List.isEmpty_iff.1 none
      refine ⟨last,[],[],rfl,.nil _,?_,by simp [all],by simp [all]⟩
      intro m n parsed
      obtain ⟨positive,within⟩ := progresses _ _ _ parsed
      exact absurd within (Nat.not_le.2 positive)
    next more =>
    split
    next m consumed parsed =>
      have taken := progresses _ _ _ parsed
      have less : (bytes.drop consumed).length < fuel := by
        rw [length_drop]
        omega
      split
      · obtain ⟨outs,ms,rest,ran,framed,stuck,got,faults⟩ := ih [] less
        refine ⟨.onMessages (msgs++[m])::outs,m::ms,rest,by rw [ran]; rfl,.cons parsed framed,stuck,?_,faults⟩
        simp [Output.messages,got]
      · obtain ⟨outs,ms,rest,ran,framed,stuck,got,faults⟩ := ih (msgs++[m]) less
        exact ⟨outs,m::ms,rest,ran,.cons parsed framed,stuck,by simp [got],faults⟩
    all_goals next parsed =>
      have some' : bytes ≠ [] := by simpa using more
      refine ⟨_,[],bytes,rfl,.nil _,?_,by simp [Output.messages,all],by simp [Output.fault,all,some']⟩
      intro m n message
      cases parsed.symm.trans message

lemma deliver_stays {bytes : Bytes} (some' : bytes ≠ []) {message : M} (parsed : framer bytes = .message message 0)
    (capacity fuel : Nat) (msgs : List M) : deliver framer capacity fuel bytes msgs = none := by
  induction fuel generalizing msgs with
  | zero => rfl
  | succ _ ih => simp [deliver,some',parsed,ih]

/-- What an event does: it tries to receive, it calls `on_error` when that fails, and it calls the
handlers for a datagram from `src`. -/
inductive Act (A M : Type)
  | recv
  | failed (error : Error)
  | onDatagram (src : A) (bytes : Bytes)
  | output (src : A) (o : Output M)

def Act.isCall : Act A M → Bool
  | .recv => false
  | .failed _ | .onDatagram _ _ | .output _ _ => true

/-- The log has the acts, each with whether the descriptor was open. -/
structure Socket (A M : Type) where
  fdOpen : Bool := true
  log : List (Bool × Act A M) := []

/-- The handlers that are set; `closes n` tells whether the one called as act `n` closes the socket. -/
structure Handlers (A M : Type) where
  onMessages : Bool
  onDatagram : Bool
  onError : Bool
  framer : Framer M
  closes : Nat → Bool

namespace Handlers
variable (h : Handlers A M) (capacity fuel batch : Nat)

def invoke (s : Socket A M) (act : Act A M) : Socket A M :=
  { s with log := s.log++[(s.fdOpen,act)], fdOpen := s.fdOpen && !h.closes s.log.length }

/-- The vector of messages is cleared and the framer is fresh for every datagram. -/
def deliver (s : Socket A M) (rx : A × Bytes) : Option (Socket A M) :=
  if h.onDatagram then some (h.invoke s (.onDatagram rx.1 rx.2))
  else if !h.onMessages then some s
  else do
    let outs ← UdpSocket.deliver h.framer capacity fuel rx.2 []
    return ((outs.filter fun o => o.fault.isNone || h.onError).map (.output rx.1)).foldl h.invoke s

/-- The loop over the results of the receives, of which one on a closed descriptor has `EBADF`. -/
def onReadable : List (Except Error (List (A × Bytes))) → Socket A M → Option (Socket A M)
  | [], s => some s
  | result::results, s =>
    let s' := { s with log := s.log++[(s.fdOpen,.recv)] }
    match if s.fdOpen then result else .error ⟨9,.sys⟩ with
    | .error e => some (if h.onError then h.invoke s' (.failed e) else s')
    | .ok rxs =>
      let rxs := rxs.take batch
      if rxs.isEmpty then some s'
      else do
        let s ← rxs.foldlM (h.deliver capacity fuel) s'
        if rxs.length < batch then return s
        onReadable results s

def calls (rx : A × Bytes) : Option (List (Act A M)) := if h.onDatagram then some [.onDatagram rx.1 rx.2]
  else if !h.onMessages then some []
  else (UdpSocket.deliver h.framer capacity fuel rx.2 []).map fun outs =>
    (outs.filter fun o => o.fault.isNone || h.onError).map (.output rx.1)

/-- The receives and the calls that the results of the receives and the frames in them lead to, of themselves. -/
def script : List (Except Error (List (A × Bytes))) → Option (List (Act A M))
  | [] => some []
  | .error e::_ => some (.recv::if h.onError then [.failed e] else [])
  | .ok rxs::results =>
    let rxs := rxs.take batch
    if rxs.isEmpty then some [.recv]
    else do
      let first ← rxs.mapM (h.calls capacity fuel)
      if rxs.length < batch then return .recv::first.flatten
      return .recv::first.flatten++(← script results)

/-- The act, whether or not the descriptor is still open. -/
def perform (s : Socket A M) (act : Act A M) : Socket A M :=
  if act.isCall then h.invoke s act else { s with log := s.log++[(s.fdOpen,act)] }

variable {h capacity fuel batch} {s d : Socket A M}

/-- The calls for a datagram depend on nothing that came before it. -/
theorem deliver_greedy (progresses : h.framer.Progresses) (parses : h.onDatagram = false ∧ h.onMessages ∧ h.onError)
    (stays : ∀ n, h.closes n = false) (capacity : Nat) (rx : A × Bytes) (enough : rx.2.length < fuel) :
    ∃ (outs : List (Output M)) (rest : Bytes), h.framer.Framed rx.2 (outs.flatMap Output.messages) rest ∧
      h.framer.Stuck rest ∧ (outs.filterMap Output.fault).length = (if rest = [] then 0 else 1) ∧
      ∀ s, h.deliver capacity fuel s rx =
        some { s with log := s.log++outs.map fun o => (s.fdOpen,.output rx.1 o) } := by
  obtain ⟨outs,_,rest,ran,framed,stuck,rfl,faults⟩ := deliver_parses progresses capacity [] enough
  refine ⟨outs,rest,framed,stuck,faults,fun s => ?_⟩
  have calls (outs : List (Output M)) (s : Socket A M) : (outs.map (.output rx.1)).foldl h.invoke s =
      { s with log := s.log++outs.map fun o => (s.fdOpen,.output rx.1 o) } := by
    induction outs generalizing s with
    | nil => simp
    | cons o outs ih => simp [ih,invoke,stays]
  simp [deliver,parses,ran,calls]

def Open (s : Socket A M) : Prop := ∀ entry ∈ s.log, entry.1 = true

lemma perform_log (act : Act A M) : (h.perform s act).log = s.log++[(s.fdOpen,act)] := by
  unfold perform invoke
  split <;> rfl

lemma log_subset (acts : List (Act A M)) : s.log ⊆ (acts.foldl h.perform s).log :=
  foldlRecOn (motive := fun d => s.log ⊆ d.log) acts h.perform (Subset.refl _) fun d inside act _ =>
    Subset.trans inside (perform_log (s := d) act ▸ subset_append_left _ _)

/-- A descriptor that is closed before the last act is closed in the next. -/
lemma open_iff (acts : List (Act A M)) (opened : s.fdOpen = true) : Open (acts.foldl h.perform s) ↔ Open s ∧
    ∀ n, n+1 < acts.length → (acts[n]?).any Act.isCall → h.closes (s.log.length+n) = false := by
  induction acts generalizing s with
  | nil => simp
  | cons act acts ih =>
    rw [foldl_cons]
    have logged : Open (h.perform s act) ↔ Open s := by simp [Open,perform_log,opened]
    by_cases shut : act.isCall ∧ h.closes s.log.length
    · have closed : (h.perform s act).fdOpen = false := by simp [perform,invoke,shut]
      cases acts with
      | nil => simpa using logged
      | cons next acts =>
        refine iff_of_false (fun all => ?_) fun ⟨_,calm⟩ => ?_
        · have late := all (false,next) (log_subset acts (by simp [perform_log,closed]))
          cases late
        · have stays := calm 0 (by simp) (by simpa using shut.1)
          cases shut.2.symm.trans stays
    have still : (h.perform s act).fdOpen = true := by
      unfold perform invoke
      split
      next call => simpa [opened] using mt (And.intro call) shut
      · exact opened
    rw [ih still,logged,perform_log,length_append]
    refine and_congr_right fun _ => ⟨fun calm n inside call => ?_,fun calm n inside call => ?_⟩
    · cases n with
      | zero => simpa using mt (And.intro (by simpa using call)) shut
      | succ n => simpa [Nat.add_assoc,Nat.add_comm 1] using calm n (by simpa using inside) (by simpa using call)
    · simpa [Nat.add_assoc,Nat.add_comm 1] using calm (n+1) (by simpa using inside) (by simpa using call)

lemma deliver_eq (s : Socket A M) (rx : A × Bytes) :
    h.deliver capacity fuel s rx = (h.calls capacity fuel rx).map (foldl h.perform s) := by
  have all (outs : List (Output M)) (s : Socket A M) :
      (outs.map (.output rx.1)).foldl h.perform s = (outs.map (.output rx.1)).foldl h.invoke s := by
    induction outs generalizing s with
    | nil => rfl
    | cons o outs ih => exact ih _
  unfold deliver calls
  split
  · rfl
  split
  · rfl
  cases UdpSocket.deliver h.framer capacity fuel rx.2 [] with
  | none => rfl
  | some outs => exact congrArg some (all _ s).symm

lemma deliverAll_eq {rxs : List (A × Bytes)} {acts : List (List (Act A M))}
    (planned : rxs.mapM (h.calls capacity fuel) = some acts) (s : Socket A M) :
    rxs.foldlM (h.deliver capacity fuel) s = some (acts.flatten.foldl h.perform s) := by
  induction rxs generalizing acts s with
  | nil =>
    cases planned
    rfl
  | cons rx rxs ih =>
    rw [mapM_cons] at planned
    obtain ⟨first,now,planned⟩ := Option.bind_eq_some_iff.1 planned
    obtain ⟨others,later,planned⟩ := Option.bind_eq_some_iff.1 planned
    cases planned
    rw [foldlM_cons,deliver_eq,now,flatten_cons,foldl_append]
    exact ih later _

lemma script_cons {result : Except Error (List (A × Bytes))} {results : List (Except Error (List (A × Bytes)))}
    {acts : List (Act A M)} (planned : h.script capacity fuel batch (result::results) = some acts) :
    ∃ rest, acts = .recv::rest := by
  cases result with
  | error =>
    cases planned
    exact ⟨_,rfl⟩
  | ok rxs =>
    simp only [script] at planned
    split at planned
    · cases planned
      exact ⟨[],rfl⟩
    obtain ⟨_,_,planned⟩ := Option.bind_eq_some_iff.1 planned
    split at planned
    · cases planned
      exact ⟨_,rfl⟩
    obtain ⟨_,_,planned⟩ := Option.bind_eq_some_iff.1 planned
    cases planned
    exact ⟨_,rfl⟩

/-- Up to the first act on a closed descriptor an event follows its script. -/
lemma onReadable_follows {results : List (Except Error (List (A × Bytes)))} {acts : List (Act A M)}
    (planned : h.script capacity fuel batch results = some acts) (s : Socket A M) :
    ∃ d, h.onReadable capacity fuel batch results s = some d ∧ (Open d ↔ Open (acts.foldl h.perform s)) := by
  induction results generalizing acts s with
  | nil =>
    cases planned
    exact ⟨s,rfl,.rfl⟩
  | cons result results ih =>
    cases opened : s.fdOpen with
    | false =>
      have bad {d : Socket A M} (there : (false,.recv) ∈ d.log) : ¬ Open d := fun all => nomatch all _ there
      obtain ⟨rest,rfl⟩ := script_cons planned
      refine ⟨_,by simp only [onReadable,opened]; rfl,iff_of_false (bad ?_) (bad ?_)⟩
      · split <;> simp [invoke]
      · exact log_subset rest (by simp [perform_log,opened])
    | true =>
      unfold onReadable
      simp only [opened,if_true]
      cases result with
      | error e =>
        cases planned
        refine ⟨_,rfl,?_⟩
        split <;> simp [perform,Act.isCall,opened]
      | ok rxs =>
      simp only [script] at planned ⊢
      split at planned
      next none =>
        cases planned
        rw [if_pos none]
        exact ⟨_,rfl,by simp [perform,Act.isCall,opened]⟩
      next some' =>
      obtain ⟨first,batch',planned⟩ := Option.bind_eq_some_iff.1 planned
      rw [if_neg some',deliverAll_eq batch']
      dsimp only [Option.bind_eq_bind,Option.bind_some]
      have tried : h.perform s .recv = { s with log := s.log++[(true,.recv)] } := by simp [perform,Act.isCall,opened]
      split at planned
      next short =>
        cases planned
        rw [if_pos short,foldl_cons,tried]
        exact ⟨_,rfl,by simp [opened]⟩
      next full =>
        obtain ⟨rest,onwards,planned⟩ := Option.bind_eq_some_iff.1 planned
        cases planned
        rw [if_neg full,cons_append,foldl_cons,foldl_append,tried]
        simpa [opened] using ih onwards _

/-- The descriptor is open at every receive and call exactly when a call that closes it is the last act of the event. -/
theorem onReadable_silent {results : List (Except Error (List (A × Bytes)))} {acts : List (Act A M)}
    (planned : h.script capacity fuel batch results = some acts) :
    ∃ d, h.onReadable capacity fuel batch results {} = some d ∧ ((∀ entry ∈ d.log, entry.1 = true) ↔
      ∀ n, n+1 < acts.length → (acts[n]?).any Act.isCall → h.closes n = false) := by
  obtain ⟨d,ran,same⟩ := onReadable_follows planned ({} : Socket A M)
  refine ⟨d,ran,same.trans ((open_iff acts rfl).trans ?_)⟩
  simp [Open]

def pairs (raw : Bool) : Handlers Unit Bytes where
  onMessages := true
  onDatagram := raw
  onError := true
  framer b := if b.length < 2 then .needMore (2-b.length) else .message (b.take 2) 2
  closes n := raw && n == 1

theorem pairs_greedy : ∃ (outs : List (Output Bytes)) (rest : Bytes),
    (pairs false).framer.Framed [1,2,3,4,5] (outs.flatMap Output.messages) rest ∧
    (outs.filterMap Output.fault).length = if rest = [] then 0 else 1 := by
  have progresses : (pairs false).framer.Progresses := by
    intro b m n parsed
    simp only [pairs] at parsed
    split at parsed <;> cases parsed
    omega
  obtain ⟨outs,rest,framed,_,faults,_⟩ :=
    deliver_greedy progresses ⟨rfl,rfl,rfl⟩ (fun _ => rfl) 1 ((),[1,2,3,4,5]) (Nat.lt_succ_self _)
  exact ⟨outs,rest,framed,faults⟩

theorem pairs_silent : ∃ d, (pairs true).onReadable 64 9 2 [.ok [((),[1])]] {} = some d ∧
    ∀ entry ∈ d.log, entry.1 = true := by
  have planned : (pairs true).script 64 9 2 [.ok [((),[1])]] = some [.recv,.onDatagram () [1]] := rfl
  obtain ⟨d,ran,silent⟩ := onReadable_silent planned
  exact ⟨d,ran,silent.2 fun n inside call => by
    obtain rfl : n = 0 := Nat.lt_one_iff.1 (Nat.lt_of_succ_lt_succ inside)
    cases call⟩

/-- The handler of the first datagram closes the socket, which delivers the second, receives again and
reports the error. -/
theorem pairs_goes_on : ((pairs true).onReadable 64 9 2 [.ok [((),[1]),((),[2])],.ok []] {}).map (·.log) =
    some [(true,.recv),(true,.onDatagram () [1]),(false,.onDatagram () [2]),(false,.recv),
      (false,.failed ⟨9,.sys⟩)] := rfl

end Handlers
end UdpSocket
end AffiniX
