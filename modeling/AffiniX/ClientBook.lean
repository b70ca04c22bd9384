import AffiniX.ClientLoop

/-! What the books of a client agree on with its connection, its attempts and its losers. -/
namespace AffiniX.ConnBook
open Function List Nat

/-- `won` is `he_won_` and `sets` the number of the current attempt set. -/
structure Sound (b : ConnBook) (conn : Option Nat) (pending closing : List Nat) (won : Bool)
    (sets : Nat) : Prop where
  made : ∀ a, (b.conns a).alive → a < b.born
  destroyed : ∀ a, a ∈ b.destroyed ↔ a < b.born ∧ (b.conns a).alive = false
  once : b.destroyed.Nodup
  owned : ∀ a, (b.conns a).alive → conn = some a ∨ a ∈ pending ∨ a ∈ closing
  current : ∀ a, conn = some a → (b.conns a).alive ∧ a ∉ pending ∧ a ∉ closing ∧ ((b.conns a).attempt → a ∈ b.opens)
  trying : ∀ a ∈ pending, (b.conns a).alive ∧ (b.conns a).attempt ∧ (b.conns a).set = sets ∧
    a ∉ b.opens ∧ a ∉ closing ∧ (b.conns a).state ≠ .established
  losing : ∀ a ∈ closing, (b.conns a).alive ∧ (b.conns a).attempt ∧ (b.conns a).state = .closed ∧ a ∉ b.opens
  distinct : pending.Nodup ∧ closing.Nodup
  told : ∀ a, (b.conns a).alive → (b.conns a).state = .closed → ∃ reason, (a,reason) ∈ b.deferred
  opened : ∀ a ∈ b.opens, a < b.born ∧ (b.conns a).state ≠ .connecting
  openedOnce : b.opens.Nodup
  races : ∀ a ∈ b.opens, (b.conns a).attempt → (b.conns a).set ≤ sets ∧ (won = false → (b.conns a).set < sets)
  single : ∀ a ∈ b.opens, ∀ c ∈ b.opens, (b.conns a).attempt → (b.conns c).attempt →
    (b.conns a).set = (b.conns c).set → a = c
  handled : ∀ a ∈ b.handled, a < b.born ∧ ((b.conns a).attempt → a ∈ b.opens)

lemma create_sound (won : Bool) (sets : Nat) : Sound create none [] [] won sets where
  made := nofun
  destroyed := by simp [create]
  once := nodup_nil
  owned := nofun
  current := nofun
  trying := nofun
  losing := nofun
  distinct := ⟨nodup_nil,nodup_nil⟩
  told := nofun
  opened := nofun
  openedOnce := nodup_nil
  races := nofun
  single := nofun
  handled := nofun

section
variable (b : ConnBook) (conn : Option Nat) (a : Nat) (reason : CloseReason) (x : Nat)

@[simp] lemma close_alive : ((b.close conn a reason).conns x).alive = (b.conns x).alive := by
  unfold close
  split
  · by_cases same : x = a <;> simp [same]
  · rfl

@[simp] lemma close_attempt : ((b.close conn a reason).conns x).attempt = (b.conns x).attempt := by
  unfold close
  split
  · by_cases same : x = a <;> simp [same]
  · rfl

@[simp] lemma close_set : ((b.close conn a reason).conns x).set = (b.conns x).set := by
  unfold close
  split
  · by_cases same : x = a <;> simp [same]
  · rfl

lemma close_state : ((b.close conn a reason).conns x).state =
    if x = a ∧ (b.conns a).alive then .closed else (b.conns x).state := by
  unfold close
  split
  next open' => by_cases same : x = a <;> simp [same,open'.1]
  next ended =>
  by_cases same : x = a ∧ (b.conns a).alive
  · rw [if_pos same,same.1]
    exact not_not.1 fun live => ended ⟨same.2,live⟩
  · rw [if_neg same]

@[simp] lemma close_born : (b.close conn a reason).born = b.born := by
  unfold close
  split <;> rfl

@[simp] lemma close_opens : (b.close conn a reason).opens = b.opens := by
  unfold close
  split <;> rfl

@[simp] lemma close_destroyed : (b.close conn a reason).destroyed = b.destroyed := by
  unfold close
  split <;> rfl

lemma close_deferred {e : Nat × CloseReason} (before : e ∈ b.deferred) : e ∈ (b.close conn a reason).deferred := by
  unfold close
  split
  · exact mem_append_left _ before
  · exact before

lemma close_handled (after : x ∈ (b.close conn a reason).handled) :
    x ∈ b.handled ∨ x = a ∧ (b.conns a).alive ∧ b.reaches conn a := by
  unfold close at after
  split at after
  next open' =>
    split at after
    next reached =>
      rcases mem_cons.1 after with here | before
      · exact .inr ⟨here,open'.1,reached⟩
      · exact .inl before
    · exact .inl after
  · exact .inl after
end
namespace Sound
variable {b : ConnBook} {conn : Option Nat} {pending closing : List Nat} {won : Bool} {sets : Nat}
section
variable (sound : Sound b conn pending closing won sets)
include sound

lemma close_told (a : Nat) (reason : CloseReason)
    (x : Nat) (alive : (b.conns x).alive) (ended : ((b.close conn a reason).conns x).state = .closed) :
    ∃ reason', (x,reason') ∈ (b.close conn a reason).deferred := by
  by_cases before : (b.conns x).state = .closed
  · obtain ⟨reason',there⟩ := sound.told x alive before
    exact ⟨reason',close_deferred b conn a reason there⟩
  rw [close_state] at ended
  split at ended
  next same =>
    obtain ⟨rfl,_⟩ := same
    refine ⟨reason,?_⟩
    rw [ConnBook.close,if_pos ⟨alive,before⟩]
    exact mem_append_right _ (mem_singleton_self _)
  · exact absurd ended before

lemma close (a : Nat) (reason : CloseReason) : Sound (b.close conn a reason) conn pending closing won sets where
  made x := by simpa using sound.made x
  destroyed x := by simpa using sound.destroyed x
  once := by simpa using sound.once
  owned x := by simpa using sound.owned x
  current x := by simpa using sound.current x
  trying x member := by
    obtain ⟨alive,attempt,set,unopened,apart,state⟩ := sound.trying x member
    refine ⟨by simpa using alive,by simpa using attempt,by simpa using set,by simpa using unopened,apart,?_⟩
    rw [close_state]
    split
    · nofun
    · exact state
  losing x member := by
    obtain ⟨alive,attempt,state,unopened⟩ := sound.losing x member
    refine ⟨by simpa using alive,by simpa using attempt,?_,by simpa using unopened⟩
    rw [close_state]
    split
    · rfl
    · exact state
  distinct := sound.distinct
  told x alive ended := sound.close_told a reason x (by simpa using alive) ended
  opened x member := by
    obtain ⟨bound,state⟩ := sound.opened x (by simpa using member)
    refine ⟨by simpa using bound,?_⟩
    rw [close_state]
    split
    · nofun
    · exact state
  openedOnce := by simpa using sound.openedOnce
  races x := by simpa using sound.races x
  single x mx c mc := by simpa using sound.single x (by simpa using mx) c (by simpa using mc)
  handled x member := by
    rw [close_born,close_attempt,close_opens]
    rcases close_handled b conn a reason x member with before | ⟨rfl,alive,reached⟩
    · exact sound.handled x before
    refine ⟨sound.made x alive,fun attempt => ?_⟩
    have own : conn = some x := by simpa [reaches,attempt] using reached
    exact (sound.current x own).2.2.2 attempt

lemma closeAll (as : List Nat) (reason : CloseReason) :
    Sound (as.foldl (fun b a => b.close conn a reason) b) conn pending closing won sets := by
  induction as generalizing b with
  | nil => exact sound
  | cons a _ ih => exact ih (sound.close a reason)
end

lemma lose {l : Nat} {rest : List Nat} (sound : Sound b conn (l::rest) closing won sets) :
    Sound (b.close conn l .localClose) conn rest (closing++[l]) won sets := by
  have closed := sound.close l .localClose
  obtain ⟨alive,attempt,_,unopened,apart,_⟩ := sound.trying l mem_cons_self
  have fresh := nodup_cons.1 sound.distinct.1
  refine { closed with owned := ?_, current := ?_, trying := ?_, losing := ?_, distinct := ?_ }
  · intro x live
    rcases closed.owned x live with held | member | there
    · exact .inl held
    · rcases mem_cons.1 member with rfl | member
      · exact .inr (.inr (mem_append_right _ (mem_singleton_self _)))
      · exact .inr (.inl member)
    · exact .inr (.inr (mem_append_left _ there))
  · intro x held
    obtain ⟨live,away,out,seen⟩ := closed.current x held
    refine ⟨live,fun member => away (mem_cons_of_mem _ member),?_,seen⟩
    intro member
    rcases mem_append.1 member with old | here
    · exact out old
    rw [mem_singleton.1 here] at away
    exact away mem_cons_self
  · intro x member
    obtain ⟨live,tries,set,quiet,out,state⟩ := closed.trying x (mem_cons_of_mem _ member)
    refine ⟨live,tries,set,quiet,?_,state⟩
    intro there
    rcases mem_append.1 there with old | here
    · exact out old
    rw [mem_singleton.1 here] at member
    exact fresh.1 member
  · intro x member
    rcases mem_append.1 member with old | here
    · exact closed.losing x old
    rw [mem_singleton.1 here]
    refine ⟨by simpa using alive,by simpa using attempt,?_,by simpa using unopened⟩
    rw [close_state,if_pos ⟨rfl,alive⟩]
  refine ⟨fresh.2,nodup_append.2 ⟨sound.distinct.2,pairwise_singleton _ l,?_⟩⟩
  intro x old y here same
  rw [same,mem_singleton.1 here] at old
  exact apart old

lemma loseAll {losers : List Nat} (sound : Sound b conn losers closing won sets) :
    Sound (losers.foldl (fun b l => b.close conn l .localClose) b) conn [] (closing++losers) won sets := by
  induction losers generalizing b closing with
  | nil => simpa using sound
  | cons _ _ ih => simpa using ih sound.lose

lemma pending_of_connecting (sound : Sound b conn pending closing won sets) {a : Nat} (alive : (b.conns a).alive)
    (attempt : (b.conns a).attempt) (state : (b.conns a).state = .connecting) : a ∈ pending := by
  rcases sound.owned a alive with held | member | member
  · exact absurd state (sound.opened a ((sound.current a held).2.2.2 attempt)).2
  · exact member
  rw [(sound.losing a member).2.2.1] at state
  cases state

lemma current_of_sequential (sound : Sound b conn pending closing won sets) {a : Nat}
    (alive : (b.conns a).alive) (sequential : (b.conns a).attempt = false) : conn = some a := by
  rcases sound.owned a alive with held | member | member
  · exact held
  · rw [(sound.trying a member).2.1] at sequential
    cases sequential
  rw [(sound.losing a member).2.1] at sequential
  cases sequential

section
lemma born_fresh (sound : Sound b conn pending closing won sets) :
    (b.conns b.born).alive = false ∧ b.born ∉ b.destroyed ∧ b.born ∉ pending ∧ b.born ∉ closing ∧
    b.born ∉ b.opens ∧ b.born ∉ b.handled ∧ conn ≠ some b.born := by
  have dead : ¬ (b.conns b.born).alive := fun alive => lt_irrefl _ (sound.made _ alive)
  refine ⟨by simpa using dead,?_,?_,?_,?_,?_,?_⟩
  · exact fun there => lt_irrefl _ ((sound.destroyed _).1 there).1
  · exact fun there => dead (sound.trying _ there).1
  · exact fun there => dead (sound.losing _ there).1
  · exact fun there => lt_irrefl _ (sound.opened _ there).1
  · exact fun there => lt_irrefl _ (sound.handled _ there).1
  · exact fun held => dead (sound.current _ held).1

lemma construct_conns (attempt : Bool) (set x : Nat) : (b.construct attempt set).conns x =
    if x = b.born then ⟨attempt,set,.connecting,true⟩ else b.conns x :=
  update_apply _ _ _ _

lemma construct (sound : Sound b conn pending closing won sets) (attempt : Bool) {set : Nat}
    {conn' : Option Nat} {pending' : List Nat}
    (owned : ∀ a, conn = some a ∨ a ∈ pending ∨ a ∈ closing ∨ a = b.born → conn' = some a ∨ a ∈ pending' ∨ a ∈ closing)
    (current : ∀ a, conn' = some a → a ∉ pending' ∧ (conn = some a ∨ a = b.born ∧ attempt = false))
    (trying : ∀ a ∈ pending', a ∈ pending ∨ a = b.born ∧ attempt = true ∧ set = sets)
    (distinct : pending'.Nodup) :
    Sound (b.construct attempt set) conn' pending' closing won sets := by
  obtain ⟨dead,intact,_,out,unseen,unheard,_⟩ := sound.born_fresh
  have other : ∀ x ∈ b.opens, x ≠ b.born := fun x there same => unseen (same ▸ there)
  refine ⟨?_,?_,sound.once,?_,?_,?_,?_,⟨distinct,sound.distinct.2⟩,?_,?_,sound.openedOnce,?_,?_,?_⟩
  · intro x alive
    rw [construct_conns] at alive
    change x < b.born+1
    split at alive
    · omega
    have := sound.made x alive
    omega
  · intro x
    rw [construct_conns]
    change x ∈ b.destroyed ↔ x < b.born+1 ∧ _
    by_cases new : x = b.born
    · simp [new,intact]
    rw [if_neg new,sound.destroyed x]
    constructor
    · rintro ⟨bound,gone⟩
      exact ⟨by omega,gone⟩
    rintro ⟨bound,gone⟩
    exact ⟨by omega,gone⟩
  · intro x alive
    apply owned
    rw [construct_conns] at alive
    split at alive
    next new => exact .inr (.inr (.inr new))
    · rcases sound.owned x alive with held | member | member
      · exact .inl held
      · exact .inr (.inl member)
      · exact .inr (.inr (.inl member))
  · intro x held
    obtain ⟨away,old | ⟨new,sequential⟩⟩ := current x held
    · obtain ⟨alive,_,gone,seen⟩ := sound.current x old
      have differs : x ≠ b.born := fun same => by simp [same,dead] at alive
      rw [construct_conns,if_neg differs]
      exact ⟨alive,away,gone,seen⟩
    rw [construct_conns,if_pos new]
    refine ⟨rfl,away,new ▸ out,fun tries => ?_⟩
    rw [sequential] at tries
    cases tries
  · intro x member
    rcases trying x member with old | ⟨new,attempts,same⟩
    · obtain ⟨alive,rest⟩ := sound.trying x old
      have differs : x ≠ b.born := fun same => by simp [same,dead] at alive
      rw [construct_conns,if_neg differs]
      exact ⟨alive,rest⟩
    rw [construct_conns,if_pos new]
    exact ⟨rfl,attempts,same,new ▸ unseen,new ▸ out,nofun⟩
  · intro x member
    have differs : x ≠ b.born := fun same => out (same ▸ member)
    rw [construct_conns,if_neg differs]
    exact sound.losing x member
  · intro x alive ended
    rw [construct_conns] at alive ended
    split at alive
    next new =>
      rw [if_pos new] at ended
      cases ended
    next old =>
    rw [if_neg old] at ended
    exact sound.told x alive ended
  · intro x member
    rw [construct_conns,if_neg (other x member)]
    obtain ⟨bound,state⟩ := sound.opened x member
    exact ⟨lt_succ_of_lt bound,state⟩
  · intro x member
    rw [construct_conns,if_neg (other x member)]
    exact sound.races x member
  · intro x mx c mc
    rw [construct_conns,construct_conns,if_neg (other x mx),if_neg (other c mc)]
    exact sound.single x mx c mc
  intro x member
  have differs : x ≠ b.born := fun same => unheard (same ▸ member)
  rw [construct_conns,if_neg differs]
  obtain ⟨bound,seen⟩ := sound.handled x member
  exact ⟨lt_succ_of_lt bound,seen⟩

lemma launch (sound : Sound b conn pending closing won sets) :
    Sound (b.construct true sets) conn (pending++[b.born]) closing won sets := by
  obtain ⟨_,_,fresh,_,_,_,free⟩ := sound.born_fresh
  apply sound.construct
  · rintro a (held | member | member | new)
    · exact .inl held
    · exact .inr (.inl (mem_append_left _ member))
    · exact .inr (.inr member)
    · exact .inr (.inl (mem_append_right _ (mem_singleton.2 new)))
  · intro a held
    refine ⟨?_,.inl held⟩
    intro member
    rcases mem_append.1 member with old | new
    · exact (sound.current a held).2.1 old
    · exact free (mem_singleton.1 new ▸ held)
  · intro a member
    rcases mem_append.1 member with old | new
    · exact .inl old
    · exact .inr ⟨mem_singleton.1 new,rfl,rfl⟩
  refine nodup_append.2 ⟨sound.distinct.1,pairwise_singleton _ _,?_⟩
  intro x old y new same
  rw [same,mem_singleton.1 new] at old
  exact fresh old

lemma openConn (sound : Sound b none pending closing won sets) (set : Nat) :
    Sound (b.construct false set) (some b.born) pending closing won sets := by
  obtain ⟨_,_,fresh,_⟩ := sound.born_fresh
  apply sound.construct
  · rintro a (held | member | member | new)
    · cases held
    · exact .inr (.inl member)
    · exact .inr (.inr member)
    · exact .inl (congrArg some new.symm)
  · intro a held
    cases held
    exact ⟨fresh,.inr ⟨rfl,rfl⟩⟩
  · exact fun a member => .inl member
  · exact sound.distinct.1

lemma begins (sound : Sound b conn [] closing won sets) : Sound b conn [] closing false (sets+1) :=
  { sound with
    trying := nofun
    races := fun a member attempt =>
      have early := (sound.races a member attempt).1
      ⟨le_succ_of_le early,fun _ => lt_succ_of_le early⟩ }
end
section
variable {a : Nat}

lemma destroy_conns (b : ConnBook) (a x : Nat) : (b.destroy a).conns x =
    if x = a then { b.conns a with alive := false } else b.conns x :=
  update_apply _ _ _ _

lemma destroy (sound : Sound b conn pending closing won sets) (alive : (b.conns a).alive) :
    Sound (b.destroy a) (if conn = some a then none else conn) (pending.erase a) (closing.erase a) won sets := by
  have kept : ∀ x, ((b.destroy a).conns x).alive → x ≠ a ∧ (b.conns x).alive := by
    intro x live
    rw [destroy_conns] at live
    split at live
    · cases live
    next other => exact ⟨other,live⟩
  have state : ∀ x, ((b.destroy a).conns x).state = (b.conns x).state ∧
      ((b.destroy a).conns x).attempt = (b.conns x).attempt ∧
      ((b.destroy a).conns x).set = (b.conns x).set := by
    intro x
    rw [destroy_conns]
    split
    next same =>
      rw [same]
      exact ⟨rfl,rfl,rfl⟩
    · exact ⟨rfl,rfl,rfl⟩
  refine ⟨?_,?_,?_,?_,?_,?_,?_,?_,?_,?_,sound.openedOnce,?_,?_,?_⟩
  · exact fun x live => sound.made x (kept x live).2
  · intro x
    change x ∈ a::b.destroyed ↔ x < b.born ∧ _
    rw [mem_cons,sound.destroyed,destroy_conns]
    by_cases same : x = a
    · simp [same,sound.made a alive]
    · simp [same]
  · refine nodup_cons.2 ⟨fun there => ?_,sound.once⟩
    rw [((sound.destroyed a).1 there).2] at alive
    cases alive
  · intro x live
    obtain ⟨other,live⟩ := kept x live
    rcases sound.owned x live with held | member | member
    · refine .inl ?_
      rw [held,if_neg fun same => other (Option.some.inj same)]
    · exact .inr (.inl ((mem_erase_of_ne other).2 member))
    · exact .inr (.inr ((mem_erase_of_ne other).2 member))
  · intro x held
    split at held
    · cases held
    next differs =>
    have other : x ≠ a := fun same => differs (same ▸ held)
    obtain ⟨live,away,out,seen⟩ := sound.current x held
    rw [destroy_conns,if_neg other]
    exact ⟨live,fun there => away (mem_of_mem_erase there), fun there => out (mem_of_mem_erase there),seen⟩
  · intro x member
    have other : x ≠ a := fun same => by
      rw [same] at member
      exact sound.distinct.1.not_mem_erase member
    obtain ⟨live,tries,set,quiet,out,state⟩ := sound.trying x (mem_of_mem_erase member)
    rw [destroy_conns,if_neg other]
    exact ⟨live,tries,set,quiet,fun there => out (mem_of_mem_erase there),state⟩
  · intro x member
    have other : x ≠ a := fun same => by
      rw [same] at member
      exact sound.distinct.2.not_mem_erase member
    rw [destroy_conns,if_neg other]
    exact sound.losing x (mem_of_mem_erase member)
  · exact ⟨sound.distinct.1.erase a,sound.distinct.2.erase a⟩
  · intro x live ended
    rw [(state x).1] at ended
    exact sound.told x (kept x live).2 ended
  · intro x member
    rw [(state x).1]
    exact sound.opened x member
  · intro x member
    rw [(state x).2.1,(state x).2.2]
    exact sound.races x member
  · intro x mx c mc
    rw [(state x).2.1,(state x).2.2,(state c).2.1,(state c).2.2]
    exact sound.single x mx c mc
  intro x member
  rw [(state x).2.1]
  exact sound.handled x member

lemma pop {reason : CloseReason} {rest : List (Nat × CloseReason)} (sound : Sound b conn pending closing won sets)
    (dead : (b.conns a).alive = false) (next : b.deferred = (a,reason)::rest) : Sound { b with deferred := rest }
    conn pending closing won sets :=
  { sound with
    told := fun x alive ended => by
      obtain ⟨reason',there⟩ := sound.told x alive ended
      rw [next] at there
      rcases mem_cons.1 there with same | later
      · rw [Prod.mk.inj same |>.1,dead] at alive
        cases alive
      · exact ⟨reason',later⟩ }
end
variable {a : Nat}

lemma establish_conns (b : ConnBook) (a x : Nat) : (b.establish a).conns x =
    if x = a then { b.conns a with state := .established } else b.conns x :=
  update_apply _ _ _ _

lemma establish (sound : Sound b conn pending closing won sets) {conn' : Option Nat} {pending' : List Nat}
    {won' : Bool} (alive : (b.conns a).alive) (state : (b.conns a).state = .connecting) (owned : conn' = some a)
    (places : ∀ x, conn = some x ∨ x ∈ pending → x = a ∨ x ∈ pending') (trying : ∀ x ∈ pending', x ≠ a ∧ x ∈ pending)
    (distinct : pending'.Nodup) (races : (b.conns a).attempt → (b.conns a).set = sets ∧ won = false ∧ won' = true)
    (later : won' = false → won = false) : Sound { b.establish a with opens := a::b.opens }
    conn' pending' closing won' sets := by
  have new : a ∉ b.opens := fun there => (sound.opened a there).2 state
  have out : a ∉ closing := fun there => by
    rw [(sound.losing a there).2.2.1] at state
    cases state
  have kept : ∀ x, ((b.establish a).conns x).alive = (b.conns x).alive ∧
      ((b.establish a).conns x).attempt = (b.conns x).attempt ∧
      ((b.establish a).conns x).set = (b.conns x).set := by
    intro x
    rw [establish_conns]
    split
    next same =>
      rw [same]
      exact ⟨rfl,rfl,rfl⟩
    · exact ⟨rfl,rfl,rfl⟩
  refine ⟨?_,?_,sound.once,?_,?_,?_,?_,⟨distinct,sound.distinct.2⟩,?_,?_,?_,?_,?_,?_⟩
  · intro x live
    rw [(kept x).1] at live
    exact sound.made x live
  · intro x
    rw [(kept x).1]
    exact sound.destroyed x
  · intro x live
    rw [(kept x).1] at live
    have place (there : x = a ∨ x ∈ pending') : conn' = some x ∨ x ∈ pending' ∨ x ∈ closing := by
      rcases there with rfl | member
      · exact .inl owned
      · exact .inr (.inl member)
    rcases sound.owned x live with held | member | member
    · exact place (places x (.inl held))
    · exact place (places x (.inr member))
    · exact .inr (.inr member)
  · intro x held
    rw [owned] at held
    cases held
    rw [(kept a).1]
    exact ⟨alive,fun there => (trying a there).1 rfl,out,fun _ => mem_cons_self⟩
  · intro x member
    obtain ⟨other,old⟩ := trying x member
    rw [establish_conns,if_neg other]
    obtain ⟨live,tries,set,quiet,away,idle⟩ := sound.trying x old
    refine ⟨live,tries,set,fun there => ?_,away,idle⟩
    rcases mem_cons.1 there with same | there
    · exact other same
    · exact quiet there
  · intro x member
    have other : x ≠ a := fun same => out (same ▸ member)
    rw [establish_conns,if_neg other]
    obtain ⟨live,tries,ended,quiet⟩ := sound.losing x member
    refine ⟨live,tries,ended,fun there => ?_⟩
    rcases mem_cons.1 there with same | there
    · exact other same
    · exact quiet there
  · intro x live ended
    rw [establish_conns] at live ended
    split at live
    next same =>
      rw [if_pos same] at ended
      cases ended
    next other =>
    rw [if_neg other] at ended
    exact sound.told x live ended
  · intro x member
    rw [establish_conns]
    rcases mem_cons.1 member with rfl | old
    · rw [if_pos rfl]
      exact ⟨sound.made x alive,nofun⟩
    have other : x ≠ a := fun same => new (same ▸ old)
    rw [if_neg other]
    exact sound.opened x old
  · exact nodup_cons.2 ⟨new,sound.openedOnce⟩
  · intro x member attempt
    rw [(kept x).2.1] at attempt
    rw [(kept x).2.2]
    rcases mem_cons.1 member with rfl | old
    · obtain ⟨own,_,ends⟩ := races attempt
      exact ⟨le_of_eq own,fun still => by simp [ends] at still⟩
    obtain ⟨early,before⟩ := sound.races x old attempt
    exact ⟨early,fun still => before (later still)⟩
  · have apart : ∀ x ∈ b.opens, (b.conns a).attempt → (b.conns x).attempt → (b.conns x).set ≠ (b.conns a).set := by
      intro x old tries tries' same
      obtain ⟨own,still,_⟩ := races tries
      have before := (sound.races x old tries').2 still
      omega
    intro x mx c mc
    rw [(kept x).2.1,(kept x).2.2,(kept c).2.1,(kept c).2.2]
    intro tx tc same
    rcases mem_cons.1 mx with hx | ox
    · rcases mem_cons.1 mc with hc | oc
      · rw [hx,hc]
      rw [hx] at tx same
      exact absurd same.symm (apart c oc tx tc)
    rcases mem_cons.1 mc with hc | oc
    · rw [hc] at tc same
      exact absurd same (apart x ox tc tx)
    · exact sound.single x ox c oc tx tc same
  intro x member
  rw [(kept x).2.1]
  obtain ⟨bound,seen⟩ := sound.handled x member
  exact ⟨bound,fun attempt => mem_cons_of_mem _ (seen attempt)⟩

lemma message (sound : Sound b conn pending closing won sets) (alive : (b.conns a).alive)
    (state : (b.conns a).state = .established) :
    Sound { b with handled := a::b.handled } conn pending closing won sets :=
  { sound with
    handled := fun x member => by
      rcases mem_cons.1 member with rfl | old
      · refine ⟨sound.made x alive,fun attempt => ?_⟩
        rcases sound.owned x alive with held | there | there
        · exact (sound.current x held).2.2.2 attempt
        · exact absurd state (sound.trying x there).2.2.2.2.2
        have ended := (sound.losing x there).2.2.1
        rw [state] at ended
        cases ended
      · exact sound.handled x old }
end Sound
end AffiniX.ConnBook
