import AffiniX.Connection

/-! The framers that the library ships: the adapter for headers that state the body length, and HTTP requests. -/
namespace AffiniX
open List
namespace Framer
variable {M : Type}

structure Stable (framer : Framer M) : Prop where
  within : ∀ {b m n}, framer b = .message m n → n ≤ b.length
  message : ∀ {b m n}, framer b = .message m n → ∀ more, framer (b++more) = .message m n
  error : ∀ {b e}, framer b = .error e → ∀ more, framer (b++more) = .error e

def Stuck (framer : Framer M) (b : Bytes) : Prop := ∀ m n, framer b ≠ .message m n

inductive Framed (framer : Framer M) : Bytes → List M → Bytes → Prop
  | nil (b : Bytes) : Framed framer b [] b
  | cons {b : Bytes} {m : M} {n : Nat} {ms : List M} {rest : Bytes} (first : framer b = .message m n)
      (others : Framed framer (b.drop n) ms rest) : Framed framer b (m::ms) rest

namespace Framed
variable {framer : Framer M} {b rest rest' : Bytes} {ms ms' : List M}

lemma snoc (framed : Framed framer b ms rest) {m : M} {n : Nat}
    (last : framer rest = .message m n) : Framed framer b (ms++[m]) (rest.drop n) := by
  induction framed with
  | nil => exact .cons last (.nil _)
  | cons first _ ih => exact .cons first (ih last)

lemma append (stable : Stable framer) (framed : Framed framer b ms rest) (more : Bytes) :
    Framed framer (b++more) ms (rest++more) := by
  induction framed with
  | nil => exact .nil _
  | cons first _ ih =>
    apply Framed.cons (stable.message first more)
    rw [drop_append_of_le_length (stable.within first)]
    exact ih

lemma unique (framed : Framed framer b ms rest) (framed' : Framed framer b ms' rest')
    (stuck : Stuck framer rest) (stuck' : Stuck framer rest') : ms = ms' ∧ rest = rest' := by
  induction framed generalizing ms' with
  | nil =>
    cases framed' with
    | nil => exact ⟨rfl,rfl⟩
    | cons first => exact absurd first (stuck _ _)
  | cons first _ ih =>
    cases framed' with
    | nil => exact absurd first (stuck' _ _)
    | cons first' others' =>
      rw [first] at first'
      cases first'
      obtain ⟨rfl,rfl⟩ := ih others' stuck
      exact ⟨rfl,rfl⟩
end Framed

def fails (framer : Framer M) (b : Bytes) : Bool := match framer b with
  | .error _ => true
  | .message _ _ | .needMore _ => false

lemma stuck_of_error {framer : Framer M} {b : Bytes} {e : Error} (error : framer b = .error e) : Stuck framer b := by
  intro m n message
  rw [error] at message
  cases message
end Framer

def Framer.Progresses {M : Type} (framer : Framer M) : Prop := ∀ b m n, framer b = .message m n → 0 < n ∧ n ≤ b.length

/-- A protocol with headers `H` and messages `M`; `header` reads the copied header bytes. -/
structure FixedHeaderProtocol (H M : Type) where
  headerSize : Nat
  header : Bytes → H
  validate : H → Except Error Unit
  bodySize : H → Except Error Nat
  message : H → Bytes → M

namespace FixedHeaderFramer
variable {H M : Type}
section
variable (proto : FixedHeaderProtocol H M)

/-- The sum of header and body is one of `std::size_t`. -/
def parse : Framer M := fun bytes =>
  if bytes.length < proto.headerSize then .needMore (proto.headerSize-bytes.length)
  else
    let h := proto.header (bytes.take proto.headerSize)
    match proto.validate h with
    | .error e => .error e
    | .ok _ =>
      match proto.bodySize h with
      | .error e => .error e
      | .ok bs =>
        let total := (proto.headerSize+bs)%2^64
        if bytes.length < total then .needMore (total-bytes.length)
        else .message (proto.message h ((bytes.drop proto.headerSize).take bs)) total

def Bounded : Prop := ∀ h n, proto.bodySize h = .ok n → proto.headerSize+n < 2^63

/-- The header is accepted and announces a body of `n` bytes. -/
def Announces (header : Bytes) (n : Nat) : Prop :=
  proto.validate (proto.header header) = .ok () ∧ proto.bodySize (proto.header header) = .ok n

lemma parse_cases (bytes : Bytes) : bytes.length < proto.headerSize ∨
    (∃ e, ∀ more, parse proto (bytes++more) = .error e) ∨
    ∃ bs, proto.headerSize ≤ bytes.length ∧ Announces proto (bytes.take proto.headerSize) bs ∧
    ∀ more, parse proto (bytes++more) =
    let total := (proto.headerSize+bs)%2^64
      if (bytes++more).length < total then .needMore (total-(bytes++more).length)
      else .message (proto.message (proto.header (bytes.take proto.headerSize))
        (((bytes++more).drop proto.headerSize).take bs)) total := by
  by_cases short : bytes.length < proto.headerSize
  · exact .inl short
  right
  have long := Nat.le_of_not_lt short
  have whole (more : Bytes) : ¬ (bytes++more).length < proto.headerSize := by
    rw [length_append]
    omega
  unfold parse
  simp only [whole,if_false,take_append_of_le_length long]
  cases valid : proto.validate (proto.header (bytes.take proto.headerSize)) with
  | error e => exact .inl ⟨e,fun _ => rfl⟩
  | ok =>
    cases size : proto.bodySize (proto.header (bytes.take proto.headerSize)) with
    | error e => exact .inl ⟨e,fun _ => rfl⟩
    | ok bs => exact .inr ⟨bs,long,⟨valid,size⟩,fun _ => rfl⟩
end

variable {proto : FixedHeaderProtocol H M} {bytes : Bytes} {m : M} {n : Nat}

lemma parse_message (parsed : parse proto bytes = .message m n) : n ≤ bytes.length ∧ ∃ bs,
    proto.headerSize ≤ bytes.length ∧ Announces proto (bytes.take proto.headerSize) bs ∧
    n = (proto.headerSize+bs)%2^64 ∧
    m = proto.message (proto.header (bytes.take proto.headerSize)) ((bytes.drop proto.headerSize).take bs) := by
  obtain short | ⟨e,failed⟩ | ⟨bs,long,size,whole⟩ := parse_cases proto bytes
  · rw [parse,if_pos short] at parsed
    cases parsed
  · cases parsed.symm.trans (append_nil bytes ▸ failed [])
  have here := whole []
  simp only [append_nil,parsed] at here
  split at here
  · cases here
  cases here
  exact ⟨Nat.le_of_not_lt ‹_›,bs,long,size,rfl,rfl⟩

lemma parse_append (bounded : Bounded proto) (decided : ∀ need, parse proto bytes ≠ .needMore need) (more : Bytes) :
    parse proto (bytes++more) = parse proto bytes := by
  obtain short | ⟨e,failed⟩ | ⟨bs,long,size,whole⟩ := parse_cases proto bytes
  · exact absurd (if_pos short) (decided _)
  · rw [failed,← failed [],append_nil]
  have fits := bounded _ _ size.2
  have exact' : (proto.headerSize+bs)%2^64 = proto.headerSize+bs := by omega
  have here := whole []
  simp only [append_nil,exact'] at here
  rw [here] at decided ⊢
  by_cases short : bytes.length < proto.headerSize+bs
  · rw [if_pos short] at decided
    exact absurd rfl (decided _)
  have still : ¬ (bytes++more).length < proto.headerSize+bs := by
    rw [length_append]
    omega
  have body : bs ≤ (bytes.drop proto.headerSize).length := by
    rw [length_drop]
    omega
  simp only [whole,exact',if_neg short,if_neg still]
  rw [drop_append_of_le_length long,take_append_of_le_length body]

lemma stable (bounded : Bounded proto) : Framer.Stable (parse proto) where
  within parsed := (parse_message parsed).1
  message parsed more := by
    rw [parse_append bounded (by simp [parsed]),parsed]
  error failed more := by
    rw [parse_append bounded (by simp [failed]),failed]
end FixedHeaderFramer

structure HttpRequest where
  method : Bytes
  path : Bytes
  query : Bytes
  version : Bytes
  body : Bytes
  contentLength : Nat
deriving DecidableEq

structure HttpProto where
  maxHead : Nat := 16*1024
  maxBody : Nat := 2^20

namespace Http
def crlf : Bytes := [13,10]

def space : UInt8 := 32

def tab : UInt8 := 9

def colon : UInt8 := 58

def question : UInt8 := 63

def contentLengthName : Bytes := [99,111,110,116,101,110,116,45,108,101,110,103,116,104]

def badRequest : Error := ⟨6,.frame⟩

def frameTooLarge : Error := ⟨11,.frame⟩

def find (pattern : Bytes) : Bytes → Option Nat
  | [] => if pattern.isEmpty then some 0 else none
  | b::rest => if pattern.isPrefixOf (b::rest) then some 0 else (find pattern rest).map (·+1)

def rfind (byte : UInt8) (bytes : Bytes) : Option Nat := (bytes.reverse.findIdx? (· == byte)).map (bytes.length-1-·)

def iequals (a b : Bytes) : Bool := a.map (· ||| 0x20) == b.map (· ||| 0x20)

def blank (b : UInt8) : Bool := b == space || b == tab

def digits (n : Nat) : Bytes → Option Nat
  | [] => some n
  | b::rest => if b < 48 ∨ 57 < b then none else digits (n*10+(b.toNat-48)) rest

def parseContentLength (value : Bytes) : Option Nat :=
  let v := ((value.dropWhile blank).reverse.dropWhile blank).reverse
  if v.isEmpty ∨ 10 < v.length then none else digits 0 v

/-- The header lines from `pos` on; of two lengths the later one counts. -/
def contentLength (head : Bytes) : (fuel pos length : Nat) → Except Error Nat
  | 0, _, length => .ok length
  | fuel+1, pos, length =>
    if pos+2 < head.length then
      match find crlf (head.drop pos) with
      | none => .ok length
      | some n =>
        let h := (head.drop pos).take n
        match find [colon] h with
        | none => contentLength head fuel (pos+n+2) length
        | some at' =>
          if iequals (h.take at') contentLengthName then
            match parseContentLength (h.drop (at'+1)) with
            | none => .error badRequest
            | some length => contentLength head fuel (pos+n+2) length
          else contentLength head fuel (pos+n+2) length
    else .ok length

def parseHead (head : Bytes) : Except Error HttpRequest := match find crlf head with
  | none => .error badRequest
  | some eol =>
    let line := head.take eol
    match find [space] line,rfind space line with
    | some sp1,some sp2 =>
      if sp2 = sp1 then .error badRequest
      else
        let target := (line.drop (sp1+1)).take (sp2-sp1-1)
        let (path,query) := match find [question] target with
          | some q => (target.take q,target.drop (q+1))
          | none => (target,[])
        match contentLength head head.length (eol+2) 0 with
        | .error e => .error e
        | .ok length => .ok ⟨line.take sp1,path,query,line.drop (sp2+1),[],length⟩
    | _,_ => .error badRequest
end Http

open Http in
def HttpProto.parse (proto : HttpProto) : Framer HttpRequest := fun bytes =>
  match find (crlf++crlf) (bytes.take proto.maxHead) with
  | none => if proto.maxHead ≤ bytes.length then .error frameTooLarge else .needMore 1
  | some end' =>
    let headEnd := end'+4
    match parseHead (bytes.take headEnd) with
    | .error e => .error e
    | .ok req =>
      if proto.maxBody < req.contentLength then .error frameTooLarge
      else
        let total := headEnd+req.contentLength
        if bytes.length < total then .needMore (total-bytes.length)
        else .message { req with body := (bytes.drop headEnd).take req.contentLength } total

namespace Http
lemma find_within {pattern bytes : Bytes} {n : Nat} (found : find pattern bytes = some n) :
    n+pattern.length ≤ bytes.length := by
  induction bytes generalizing n with
  | nil =>
    obtain ⟨empty,rfl⟩ := Transition.enabled found
    simp [List.isEmpty_iff.1 empty]
  | cons _ _ ih =>
    simp only [find] at found
    split at found
    next here =>
      cases found
      simpa using ( isPrefixOf_iff_prefix.1 here).length_le
    · obtain ⟨k,later,rfl⟩ := Option.map_eq_some_iff.1 found
      have bound := ih later
      rw [length_cons]
      omega

lemma find_append {pattern bytes : Bytes} {n : Nat} (found : find pattern bytes = some n)
    (more : Bytes) : find pattern (bytes++more) = some n := by
  induction bytes generalizing n with
  | nil =>
    obtain ⟨empty,rfl⟩ := Transition.enabled found
    rw [List.isEmpty_iff.1 empty]
    cases more <;> rfl
  | cons b rest ih =>
    have long := find_within found
    simp only [find,cons_append] at found ⊢
    split at found
    next here =>
      cases found
      have longer : pattern <+: b::(rest++more) :=
        ( isPrefixOf_iff_prefix.1 here).trans (prefix_append (b::rest) more)
      rw [if_pos ( isPrefixOf_iff_prefix.2 longer)]
    next elsewhere =>
    obtain ⟨k,later,rfl⟩ := Option.map_eq_some_iff.1 found
    -- The pattern lies within the old bytes, so that no new byte can complete an earlier one.
    have still : ¬ pattern.isPrefixOf (b::(rest++more)) = true := by
      intro now
      apply elsewhere
      apply isPrefixOf_iff_prefix.2
      apply prefix_of_prefix_length_le ( isPrefixOf_iff_prefix.1 now) (prefix_append (b::rest) more)
      omega
    rw [if_neg still,ih later]
    rfl

def lines : Bytes → List Bytes
  | 13::10::rest => []::lines rest
  | b::rest => (lines rest).modifyHead (b::·)
  | [] => []

def lower (b : UInt8) : UInt8 := if 65 ≤ b ∧ b ≤ 90 then b+32 else b

/-- A carriage return passes for the hyphen of the name. -/
def takenNames : List Bytes := [contentLengthName,contentLengthName.set 7 13]

section
variable (names : List Bytes)

def lengthField (h : Bytes) : Option Bytes :=
  (find [colon] h).bind fun n => if (h.take n).map lower ∈ names then some (h.drop (n+1)) else none

/-- The length that the last header line with one of the names states, `length` if there is none. -/
def lastLength (length : Nat) (headers : List Bytes) : Option Nat :=
  (headers.filterMap (lengthField names)).getLast?.elim (some length) parseContentLength
end

lemma lines_of_find (bytes : Bytes) :
    lines bytes = ((find crlf bytes).map fun n => bytes.take n::lines (bytes.drop (n+2))).getD [] := by
  fun_induction lines bytes with
  | case1 rest => rfl
  | case2 b rest other ih =>
    have later : ¬ crlf.isPrefixOf (b::rest) = true := by
      intro here
      obtain ⟨rest',same⟩ := isPrefixOf_iff_prefix.1 here
      cases same
      exact other _ rfl rfl
    rw [find,if_neg later,ih]
    cases find crlf rest <;> rfl
  | case3 => rfl

lemma lastLength_short {bytes : Bytes} (short : bytes.length ≤ 2) (length : Nat) :
    lastLength takenNames length (lines bytes) = some length := by
  rw [lines_of_find]
  cases found : find crlf bytes with
  | none => rfl
  | some n =>
    have within : n+2 ≤ bytes.length := find_within found
    obtain rfl : n = 0 := by omega
    rw [Option.map_some,drop_of_length_le short]
    rfl

lemma iequals_contentLength (name : Bytes) : iequals name contentLengthName = true ↔ name.map lower ∈ takenNames := by
  have byte : ∀ v : BitVec 8, let b : UInt8 := ⟨v⟩
      (∀ c ∈ contentLengthName, c ≠ 45 → (b ||| 0x20 = c ↔ lower b = c)) ∧
        (b ||| 0x20 = 45 ↔ lower b = 45 ∨ lower b = 13) := by
    decide +kernel
  have letters {p : Bytes} (known : ∀ c ∈ p, c ∈ contentLengthName ∧ c ≠ 45) (s : Bytes) :
      s.map (· ||| 0x20) = p ↔ s.map lower = p := by
    induction p generalizing s with
    | nil => simp
    | cons c p ih =>
      obtain ⟨⟨letter,other⟩,known⟩ := forall_mem_cons.1 known
      cases s with
      | nil => simp
      | cons b s => simp [(byte b.toBitVec).1 c letter other,ih known]
  have parts (g : UInt8 → UInt8) (c : UInt8) : name.map g = contentLengthName.set 7 c ↔
      (name.take 7).map g = contentLengthName.take 7 ∧ (name.drop 7).map g = c::contentLengthName.drop 8 := by
    rw [map_take,map_drop]
    refine ⟨fun same => by rw [same]; exact ⟨rfl,rfl⟩,fun same => ?_⟩
    rw [← take_append_drop 7 (name.map g),same.1,same.2]
    rfl
  have hyphen : name.map (· ||| 0x20) = contentLengthName.set 7 45 ↔
      name.map lower = contentLengthName.set 7 45 ∨ name.map lower = contentLengthName.set 7 13 := by
    rw [parts,parts,parts,letters (by decide +kernel),← and_or_left]
    refine and_congr_right fun _ => ?_
    cases name.drop 7 with
    | nil => simp
    | cons b rest =>
      have here : b ||| 0x20 = 45 ↔ lower b = 45 ∨ lower b = 13 := (byte b.toBitVec).2
      simp only [map_cons,cons.injEq,here,letters (p := contentLengthName.drop 8) (by decide +kernel),or_and_right]
  rw [iequals,beq_iff_eq]
  exact hyphen.trans (by simp [takenNames,contentLengthName])

lemma contentLength_lines {head : Bytes} {fuel pos length stated : Nat} (enough : head.length ≤ pos+fuel)
    (counted : contentLength head fuel pos length = .ok stated) :
    lastLength takenNames length (lines (head.drop pos)) = some stated := by
  have tail {pos length : Nat} (past : head.length ≤ pos+2) :=
    lastLength_short (show (head.drop pos).length ≤ 2 by rw [length_drop]; omega) length
  induction fuel generalizing pos length with
  | zero =>
    cases counted
    exact tail (by omega)
  | succ fuel ih =>
    rw [contentLength] at counted
    split at counted
    · rw [lines_of_find]
      cases found : find crlf (head.drop pos) with
      | none =>
        simp only [found] at counted
        cases counted
        rfl
      | some n =>
        simp only [found,Option.map_some,Option.getD_some,drop_drop] at counted ⊢
        generalize (head.drop pos).take n = h at counted
        have rest {length : Nat} := @ih (pos+(n+2)) length (by omega)
        unfold lastLength at rest ⊢
        rw [filterMap_cons,lengthField]
        cases parted : find [colon] h with
        | none =>
          simp only [parted] at counted
          exact rest counted
        | some k =>
          simp only [parted,iequals_contentLength] at counted
          rw [Option.bind_some]
          split at counted
          next named =>
            rw [if_pos named]
            split at counted
            · cases counted
            next value =>
            have last := rest counted
            rw [getLast?_cons]
            generalize (filterMap (lengthField takenNames) (lines (head.drop (pos+(n+2))))).getLast? = later at last
            cases later with
            | none => exact value.trans last
            | some => exact last
          next named =>
          rw [if_neg named]
          exact rest counted
    · cases counted
      exact tail (by omega)

lemma find_byte {x : UInt8} {bytes : Bytes} {n : Nat} (found : find [x] bytes = some n) :
    bytes = bytes.take n++x::bytes.drop (n+1) ∧ x ∉ bytes.take n := by
  induction bytes generalizing n with
  | nil => cases found
  | cons b rest ih =>
    simp only [find] at found
    split at found
    next here =>
      cases found
      obtain rfl : x = b := by simpa using here
      exact ⟨rfl,not_mem_nil⟩
    next other =>
    obtain ⟨k,later,rfl⟩ := Option.map_eq_some_iff.1 found
    obtain ⟨parts,none⟩ := ih later
    exact ⟨congrArg (b::·) parts,by simpa [none] using other⟩

lemma find_none {x : UInt8} {bytes : Bytes} (none : find [x] bytes = none) : x ∉ bytes := by
  induction bytes with
  | nil => exact not_mem_nil
  | cons b rest ih =>
    simp only [find] at none
    split at none
    · cases none
    next other => simpa [ih (Option.map_eq_none_iff.1 none)] using other

lemma rfind_byte {x : UInt8} {bytes : Bytes} {n : Nat} (found : rfind x bytes = some n) :
    bytes.drop n = x::bytes.drop (n+1) ∧ x ∉ bytes.drop (n+1) := by
  obtain ⟨i,first,rfl⟩ := Option.map_eq_some_iff.1 found
  obtain ⟨inside,here,before⟩ := findIdx?_eq_some_iff_getElem.1 first
  rw [length_reverse] at inside
  simp only [getElem_reverse,beq_iff_eq] at here
  refine ⟨(drop_eq_getElem_cons (by omega)).trans (by rw [here]),fun later => ?_⟩
  obtain ⟨k,within,same⟩ := mem_iff_getElem.1 later
  rw [length_drop] at within
  have none := before (i-1-k) (by omega)
  simp only [getElem_reverse,beq_iff_eq] at none
  apply none
  rw [← same,getElem_drop]
  congr 1
  omega

/-- The fields of the first line: it is parted at its first and its last space, and what is between them at the first
question mark. -/
def Drawn (req : HttpRequest) (line : Bytes) : Prop :=
  ∃ target, line = req.method++space::target++space::req.version ∧ space ∉ req.method ∧ space ∉ req.version ∧
    question ∉ req.path ∧ (target = req.path++question::req.query ∨ target = req.path ∧ req.query = [])

/-- What the head of a request says: the length of the body, and on its first line the other fields. -/
structure Describes (head : Bytes) (req : HttpRequest) : Prop where
  length : lastLength [contentLengthName] 0 (lines head).tail = some req.contentLength
  drawn : ∃ line ∈ (lines head).head?, Drawn req line

lemma parseHead_accepts {head : Bytes} {req : HttpRequest} (accepted : parseHead head = .ok req) :
    lastLength takenNames 0 (lines head).tail = some req.contentLength ∧ ∃ line ∈ (lines head).head?, Drawn req line := by
  unfold parseHead at accepted
  split at accepted
  · cases accepted
  next eol ended =>
  have parted := lines_of_find head
  rw [ended] at parted
  dsimp only at accepted
  split at accepted
  next sp1 sp2 first last =>
    split at accepted
    · cases accepted
    next apart =>
    split at accepted
    · cases accepted
    next counted =>
    cases accepted
    refine ⟨parted ▸ contentLength_lines (by omega) counted,head.take eol,by rw [parted]; rfl,?_⟩
    generalize head.take eol = line at first last ⊢
    obtain ⟨whole,before⟩ := find_byte first
    obtain ⟨rest,after⟩ := rfind_byte last
    have order : sp1 < sp2 := by
      by_contra later
      have there : line.drop sp1 = space::line.drop (sp1+1) := append_cancel_left ((take_append_drop ..).trans whole)
      exact after (drop_subset_drop_left line (by omega : sp2+1 ≤ sp1) (there ▸ mem_cons_self))
    have between : line.drop (sp1+1) = (line.drop (sp1+1)).take (sp2-sp1-1)++space::line.drop (sp2+1) := by
      rw [← rest]
      have shift : sp2 = sp1+1+(sp2-sp1-1) := by omega
      conv_lhs => rw [← take_append_drop (sp2-sp1-1) (line.drop (sp1+1)),drop_drop,← shift]
    refine ⟨(line.drop (sp1+1)).take (sp2-sp1-1),?_,before,after,?_⟩
    · rw [append_assoc,cons_append,← between]
      exact whole
    generalize (line.drop (sp1+1)).take (sp2-sp1-1) = target
    cases mark : find [question] target with
    | none => exact ⟨find_none mark,.inr ⟨rfl,rfl⟩⟩
    | some q =>
      obtain ⟨parts,clear⟩ := find_byte mark
      exact ⟨clear,.inl parts⟩
  · cases accepted
end Http
namespace HttpProto
open Http
variable {proto : HttpProto} {bytes : Bytes}

lemma parse_append (decided : ∀ need, proto.parse bytes ≠ .needMore need) (more : Bytes) :
    proto.parse (bytes++more) = proto.parse bytes := by
  unfold parse at *
  cases boundary : find (crlf++crlf) (bytes.take proto.maxHead) with
  | none =>
    simp only [boundary] at decided ⊢
    split at decided
    next full =>
      have longer : proto.maxHead ≤ (bytes++more).length := by
        rw [length_append]
        omega
      rw [take_append_of_le_length full,boundary]
      simp only [if_pos full,if_pos longer]
    · exact absurd rfl (decided _)
  | some end' =>
    have long := find_within boundary
    have head : end'+4 ≤ bytes.length := by
      simp only [length_take,crlf,length_append,length_cons,length_nil] at long
      omega
    rw [take_append,find_append boundary]
    simp only [boundary,take_append_of_le_length head,drop_append_of_le_length head] at decided ⊢
    cases parsed : parseHead (bytes.take (end'+4)) with
    | error => rfl
    | ok req =>
      simp only [parsed] at decided ⊢
      by_cases large : proto.maxBody < req.contentLength
      · rw [if_pos large,if_pos large]
      rw [if_neg large] at decided ⊢
      rw [if_neg large]
      by_cases short : bytes.length < end'+4+req.contentLength
      · rw [if_pos short] at decided
        exact absurd rfl (decided _)
      have body : req.contentLength ≤ (bytes.drop (end'+4)).length := by
        rw [length_drop]
        omega
      have still : ¬ (bytes++more).length < end'+4+req.contentLength := by
        rw [length_append]
        omega
      rw [if_neg short,if_neg still,take_append_of_le_length body]

lemma parse_within {m : HttpRequest} {n : Nat} (parsed : proto.parse bytes = .message m n) : n ≤ bytes.length := by
  unfold parse at parsed
  simp only at parsed
  split at parsed
  · split at parsed <;> cases parsed
  split at parsed
  · cases parsed
  split at parsed
  · cases parsed
  split at parsed
  · cases parsed
  next enough =>
  cases parsed
  exact Nat.le_of_not_lt enough

lemma stable : Framer.Stable proto.parse where
  within := parse_within
  message parsed more := by
    rw [parse_append (by simp [parsed]),parsed]
  error failed more := by
    rw [parse_append (by simp [failed]),failed]

/-- The last header line named content-length counts, and no other, exactly when lines named content<CR>length change
nothing. -/
theorem length_stated (proto : HttpProto) {headEnd : Nat} {req : HttpRequest}
    (boundary : find (crlf++crlf) (bytes.take proto.maxHead) = some headEnd)
    (accepted : parseHead (bytes.take (headEnd+4)) = .ok req) :
    (Describes (bytes.take (headEnd+4)) req ↔ lastLength takenNames 0 (lines (bytes.take (headEnd+4))).tail =
      lastLength [contentLengthName] 0 (lines (bytes.take (headEnd+4))).tail) ∧
    ∀ m n, proto.parse bytes = .message m n →
      n = headEnd+4+req.contentLength ∧ n ≤ bytes.length ∧
        m = { req with body := (bytes.drop (headEnd+4)).take req.contentLength } := by
  obtain ⟨length,drawn⟩ := parseHead_accepts accepted
  refine ⟨⟨fun told => length.trans told.length.symm,fun same => ⟨same ▸ length,drawn⟩⟩,fun m n parsed => ?_⟩
  have within := parse_within parsed
  simp only [parse,boundary,accepted] at parsed
  split at parsed
  · cases parsed
  split at parsed
  · cases parsed
  cases parsed
  exact ⟨rfl,within,rfl⟩

def request (name : Bytes) : Bytes := [71,32,47,32,72]++crlf++name++[colon,49]++crlf++crlf++[120]

theorem request_described : Describes ((request contentLengthName).take 27) ⟨[71],[47],[],[72],[],1⟩ :=
  (length_stated {} rfl rfl).1.2 rfl

/-- A carriage return passes for the hyphen of the name. -/
theorem carriage_return_counts : let bytes := request (contentLengthName.set 7 13)
    parse {} bytes = .message ⟨[71],[47],[],[72],[120],1⟩ 28 ∧
      lastLength [contentLengthName] 0 (lines (bytes.take 27)).tail = some 0 :=
  ⟨rfl,rfl⟩

end HttpProto
end AffiniX
