import PjProject.Library.MachineInt
import PjProject.Parser.Reader
import PjProject.Sdp.Print

set_option autoImplicit false

/-! # Keys of transactions

`create_tsx_key_2543`, `create_tsx_key_3261` and `pjsip_tsx_create_key` of
`pjsip/src/pjsip/sip_transaction.c`. A key is written to memory that is allocated before, from the
first byte on: `TsxKey` keeps the size of the memory with all that is written. The fields of a key are
put one behind the other with a separator between them, which is no character of a method name but
may be one of a branch.
-/

namespace SipKey

open SipParser (tokenSpec)
open Sdp (Str str pjUtoa stricmpEq)

/-- `pjsip_role_e`. -/
inductive Role
  | uac
  | uas
  deriving DecidableEq

/-- `pjsip_method_e`. -/
inductive MethodId
  | invite
  | cancel
  | ack
  | bye
  | register
  | options
  | other
  deriving DecidableEq

/-- `pjsip_method`. -/
structure Method where
  id : MethodId
  name : Str
  deriving DecidableEq

/-- What the keys are made of: the role, the method, and the fields of the message. -/
structure Request where
  role : Role
  method : Method
  branch : Str
  cseq : Int32
  fromTag : Str
  callId : Str
  viaHost : Str
  viaPort : Int32
  deriving DecidableEq

/-- A key: the bytes that are allocated for it, and those that are written. -/
structure TsxKey where
  allocated : Nat
  bytes : Str
  deriving DecidableEq

/-- `SEPARATOR`. -/
def separator : UInt8 := 36

/-- An `int` that is passed as an `unsigned long`. -/
def ulong (x : Int32) : Nat := (x.toInt % 18446744073709551616).toNat

/-- The role. -/
def roleChar : Role → UInt8
  | .uac => 99
  | .uas => 115

/-- The method is INVITE or ACK. -/
def Method.inviteOrAck (m : Method) : Bool := m.id == .invite || m.id == .ack

/-- The method, except when it is INVITE or ACK. -/
def methodPart (m : Method) : Str := if m.inviteOrAck then [] else m.name ++ [separator]

/-- `create_tsx_key_2543`. -/
def createTsxKey2543 (r : Request) : TsxKey where
  allocated := 9 + r.fromTag.length + r.callId.length + r.viaHost.length + 9 + 16
  bytes := [roleChar r.role, separator] ++ methodPart r.method ++
    pjUtoa (ulong r.cseq) ++ [separator] ++ r.fromTag ++ [separator] ++ r.callId ++ [separator] ++
    r.viaHost ++ [58] ++ pjUtoa (ulong r.viaPort) ++ [separator] ++ [0]

/-- `create_tsx_key_3261`. -/
def createTsxKey3261 (r : Request) : TsxKey where
  allocated := r.branch.length + r.method.name.length + 4
  bytes := [roleChar r.role, separator] ++ methodPart r.method ++ r.branch

/-- `PJSIP_RFC3261_BRANCH_ID`. -/
def branchId : Str := str ['z', '9', 'h', 'G', '4', 'b', 'K']

/-- `pj_strnicmp(branch, &rfc3261_branch, PJSIP_RFC3261_BRANCH_LEN) == 0`. -/
def rfc3261 (branch : Str) : Bool := stricmpEq (branch.take 7) branchId

/-- `pjsip_tsx_create_key`. -/
def tsxCreateKey (r : Request) : TsxKey :=
  if rfc3261 r.branch then createTsxKey3261 r else createTsxKey2543 r

/-! ## What keys are for -/

/-- Nothing is written behind what is allocated. -/
def TsxKey.Fits (k : TsxKey) : Prop := k.bytes.length ≤ k.allocated

/-- The name of the method is a token. -/
def Method.IsToken (m : Method) : Prop := ∀ c ∈ m.name, tokenSpec.mem c = true

/-- The two methods are of one class: INVITE and ACK, or the same name. -/
def Method.SameClass (m m' : Method) : Prop :=
  m.inviteOrAck = m'.inviteOrAck ∧ (m.inviteOrAck = false → m.name = m'.name)

/-- The two messages belong to one transaction. -/
def SameTsx (a b : Request) : Prop :=
  a.role = b.role ∧ a.branch = b.branch ∧ a.method.SameClass b.method

/-- The keys of the two messages are what they should be: they fit the memory, and where the branches
begin with the cookie, they are equal just for messages of one transaction. -/
structure KeysRight (a b : Request) : Prop where
  fits2543 : (createTsxKey2543 a).Fits ∧ (createTsxKey2543 b).Fits
  fits3261 : (createTsxKey3261 a).Fits ∧ (createTsxKey3261 b).Fits
  separates : rfc3261 a.branch = true → rfc3261 b.branch = true → a.method.IsToken →
    b.method.IsToken → ((tsxCreateKey a).bytes = (tsxCreateKey b).bytes ↔ SameTsx a b)

/-- The method and the two numbers are within the allowance of the estimate. -/
def Narrow (r : Request) : Prop :=
  (methodPart r.method).length + (pjUtoa (ulong r.cseq)).length +
    (pjUtoa (ulong r.viaPort)).length ≤ 26

/-- The branch of an INVITE or ACK is the name of the other method, the separator and the other
branch. -/
def Poses (a b : Request) : Prop :=
  a.method.inviteOrAck = true ∧ b.method.inviteOrAck = false ∧
    a.branch = b.method.name ++ separator :: b.branch

/-- The condition on two messages. -/
def KeysFit (a b : Request) : Prop :=
  Narrow a ∧ Narrow b ∧
    (rfc3261 a.branch = true → rfc3261 b.branch = true → a.method.IsToken → b.method.IsToken →
      a.role = b.role → ¬ Poses a b ∧ ¬ Poses b a)

variable {a b r : Request} {m m' : Method}

theorem fits2543_iff (r : Request) : (createTsxKey2543 r).Fits ↔ Narrow r := by
  unfold TsxKey.Fits Narrow createTsxKey2543
  simp only [List.length_append, List.length_cons, List.length_nil]
  omega

/-- The other estimate counts the method. -/
theorem fits3261 (r : Request) : (createTsxKey3261 r).Fits := by
  have hmethod : (methodPart r.method).length ≤ r.method.name.length + 1 := by
    unfold methodPart
    split <;> simp
  unfold TsxKey.Fits createTsxKey3261
  simp only [List.length_append, List.length_cons, List.length_nil]
  omega

/-- The separator is no character of a token. -/
theorem separator_notMem (h : m.IsToken) : separator ∉ m.name := by
  intro hmem
  have htoken := h separator hmem
  revert htoken
  decide

/-- The name in front of the first separator, and what is behind it. -/
theorem append_separator_inj {n n' t t' : Str} (hn : separator ∉ n) (hn' : separator ∉ n')
    (h : n ++ separator :: t = n' ++ separator :: t') : n = n' ∧ t = t' := by
  induction n generalizing n' with
  | nil =>
      cases n' with
      | nil => simpa using h
      | cons c n' =>
          simp only [List.nil_append, List.cons_append, List.cons.injEq] at h
          exact absurd (h.1 ▸ List.mem_cons_self) hn'
  | cons c n ih =>
      cases n' with
      | nil =>
          simp only [List.nil_append, List.cons_append, List.cons.injEq] at h
          exact absurd (h.1 ▸ List.mem_cons_self) hn
      | cons c' n' =>
          simp only [List.cons_append, List.cons.injEq] at h
          obtain ⟨hname, hrest⟩ := ih (fun hc => hn (List.mem_cons_of_mem c hc))
            (fun hc => hn' (List.mem_cons_of_mem c' hc)) h.2
          exact ⟨by rw [h.1, hname], hrest⟩

/-- When two keys of the later standard are equal, by the methods. -/
theorem methodPart_append_inj {t t' : Str} (hm : m.IsToken) (hm' : m'.IsToken) :
    methodPart m ++ t = methodPart m' ++ t' ↔
      (m.SameClass m' ∧ t = t') ∨
      (m.inviteOrAck = true ∧ m'.inviteOrAck = false ∧ t = m'.name ++ separator :: t') ∨
      (m'.inviteOrAck = true ∧ m.inviteOrAck = false ∧ t' = m.name ++ separator :: t) := by
  have hsplit : ∀ (n : Method) (u : Str), n.name ++ [separator] ++ u = n.name ++ separator :: u := by
    intro n u
    rw [List.append_assoc, List.singleton_append]
  unfold methodPart Method.SameClass
  cases h : m.inviteOrAck <;> cases h' : m'.inviteOrAck
  · simp only [Bool.false_eq_true, if_false, hsplit]
    constructor
    · intro heq
      obtain ⟨hname, hrest⟩ := append_separator_inj (separator_notMem hm) (separator_notMem hm') heq
      exact .inl ⟨⟨trivial, fun _ => hname⟩, hrest⟩
    · rintro (⟨⟨-, hname⟩, rfl⟩ | ⟨hinvite, -⟩ | ⟨hinvite, -⟩)
      · rw [hname trivial]
      · exact hinvite.elim
      · exact hinvite.elim
  · simp [hsplit, eq_comm]
  · simp [hsplit]
  · simp

/-- The keys are right unless a branch poses for the method and the branch of the other message. -/
theorem separates_iff (ha : a.method.IsToken) (hb : b.method.IsToken) :
    ((createTsxKey3261 a).bytes = (createTsxKey3261 b).bytes ↔ SameTsx a b) ↔
      (a.role = b.role → ¬ Poses a b ∧ ¬ Poses b a) := by
  have hrole : roleChar a.role = roleChar b.role ↔ a.role = b.role := by
    cases a.role <;> cases b.role <;> decide
  have hbytes : (createTsxKey3261 a).bytes = (createTsxKey3261 b).bytes ↔ a.role = b.role ∧
      methodPart a.method ++ a.branch = methodPart b.method ++ b.branch := by
    simp only [createTsxKey3261, List.cons_append, List.nil_append, List.cons.injEq, hrole, true_and]
  rw [hbytes, methodPart_append_inj ha hb]
  unfold SameTsx Poses
  by_cases heq : a.role = b.role
  · simp only [heq, true_and, true_imp_iff]
    have hclass : a.method.SameClass b.method → a.method.inviteOrAck = b.method.inviteOrAck := fun h => h.1
    grind
  · simp [heq]

/-- **When the keys of two messages are what they should be.** -/
theorem keysRight_iff (a b : Request) : KeysRight a b ↔ KeysFit a b := by
  have hkey : ∀ r : Request, rfc3261 r.branch = true → tsxCreateKey r = createTsxKey3261 r := by
    intro r hr
    rw [tsxCreateKey, if_pos hr]
  unfold KeysFit
  constructor
  · rintro ⟨⟨ha, hb⟩, -, hsep⟩
    refine ⟨(fits2543_iff a).mp ha, (fits2543_iff b).mp hb, fun hca hcb hta htb => ?_⟩
    have hkeys := hsep hca hcb hta htb
    rw [hkey a hca, hkey b hcb] at hkeys
    exact (separates_iff hta htb).mp hkeys
  · rintro ⟨ha, hb, hsep⟩
    refine ⟨⟨(fits2543_iff a).mpr ha, (fits2543_iff b).mpr hb⟩, ⟨fits3261 a, fits3261 b⟩,
      fun hca hcb hta htb => ?_⟩
    rw [hkey a hca, hkey b hcb]
    exact (separates_iff hta htb).mpr (hsep hca hcb hta htb)

/-- A message of the method with the branch `z9hG4bK` and what is behind it. -/
def message (m : Method) (rest : List Char) : Request :=
  ⟨.uas, m, branchId ++ str rest, 1, [], [], [], 5060⟩

/-- A method whose name begins with the cookie. -/
def cookieMethod : Method := ⟨.other, str ['z', '9', 'h', 'G', '4', 'b', 'K', 'x']⟩

set_option maxRecDepth 2000 in
/-- An INVITE that has the key of another message, and a message whose method has no room. -/
theorem keys_wrong :
    ¬ KeysRight (message ⟨.invite, str ['I', 'N', 'V', 'I', 'T', 'E']⟩
        ['x', '$', 'z', '9', 'h', 'G', '4', 'b', 'K', '1']) (message cookieMethod ['1']) ∧
      ¬ KeysRight (message ⟨.other, List.replicate 25 65⟩ ['1']) (message ⟨.other, List.replicate 25 65⟩ ['1']) := by
  constructor
  · intro h
    have hsame := (h.separates (by decide) (by decide) (by unfold Method.IsToken; decide)
      (by unfold Method.IsToken; decide)).mp (by decide)
    have hbranch := hsame.2.1
    revert hbranch
    decide
  · intro h
    have hfits := h.fits2543.1
    revert hfits
    unfold TsxKey.Fits
    decide

end SipKey
