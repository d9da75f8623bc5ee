import JsrD10f.DispatchAccepts

/-!
# Requests of numbers and strings

Four dispatch functions read a mixed sequence of numbers and strings.  Here is the
encoding that their payloads are documented to have, read strictly: a number needs
its four bytes, and a string is the length -1 for `NULL` or a length with all its
characters.

The functions look at the status of a number only, and at the last number only.  A
string that cannot be read gives `NULL` and leaves the position behind its length
word.  So a function is faithful to the encoding exactly on the parcels that it
rejects for want of its last number and on those whose strings are all intact.
-/

namespace Libril

open Parcel

inductive Field where
  | int32
  | string16
deriving DecidableEq, Repr

inductive FieldValue where
  | int (v : Int)
  | text (t : Text)
deriving DecidableEq, Repr

/-- A string: the null encoding, or a length with all its characters and the zero
behind them. -/
def readText (l : List UInt8) : Option (Text × List UInt8) := do
  let (size, rest) ← takeInt32 l
  if size = -1 then some (none, rest)
  else if 0 ≤ size ∧ size < 2147483647 then do
    let (chars, rest) ← takePadded ((size.toNat + 1) * 2) rest
    some (some ((units chars).take size.toNat), rest)
  else none

def Field.read (l : List UInt8) : Field → Option (FieldValue × List UInt8)
  | .int32 => (takeInt32 l).map fun p => (.int p.1, p.2)
  | .string16 => (readText l).map fun p => (.text p.1, p.2)

/-- The values of a sequence of fields at the front of a parcel. -/
def readSequence : List Field → List UInt8 → Option (List FieldValue)
  | [], _ => some []
  | f :: fs, l => do
      let (v, rest) ← f.read l
      let vs ← readSequence fs rest
      some (v :: vs)

/-- Where a dispatch function goes on after a field. -/
def Field.skip (l : List UInt8) : Field → List UInt8
  | .int32 => l.drop 4
  | .string16 => skipString l

/-- Every string, at the place where the function reads it, is intact. -/
def StringsIntact : List Field → List UInt8 → Prop
  | [], _ => True
  | f :: fs, l => (f = .string16 → (readText l).isSome = true) ∧ StringsIntact fs (f.skip l)

/-- Every number, at the place where the function reads it, has its four bytes. -/
def IntsThere : List Field → List UInt8 → Prop
  | [], _ => True
  | f :: fs, l => (f = .int32 → 4 ≤ l.length) ∧ IntsThere fs (f.skip l)

/-- The function passes on what the encoding says, and rejects a parcel that does
not start with the whole sequence. -/
def Faithful (result : DispatchResult) (fields : List Field)
    (data : List FieldValue → Option RequestData) (l : List UInt8) : Prop :=
  (∀ d, result = .onRequest d →
    ∃ values, readSequence fields l = some values ∧ data values = some d) ∧
  (readSequence fields l = none → result = .invalidCommandBlock)

/-! ## Reading strictly and reading as the code does -/

theorem takeInt32_drop {l rest : List UInt8} {v : Int} (h : takeInt32 l = some (v, rest)) :
    4 ≤ l.length ∧ rest = l.drop 4 := by
  by_cases hl : 4 ≤ l.length
  · obtain ⟨w, hw⟩ := takeInt32_some hl
    rw [hw] at h
    exact ⟨hl, (Prod.mk.inj (Option.some.inj h)).2.symm⟩
  · rw [takeInt32_none (by omega)] at h
    cases h

/-- An intact string is what the parcel reader returns. -/
theorem readText_takeString {l rest : List UInt8} {text : Text}
    (h : readText l = some (text, rest)) : takeString l = (text, rest) := by
  unfold readText at h
  cases htake : takeInt32 l with
  | none => simp [htake] at h
  | some p =>
      obtain ⟨size, behind⟩ := p
      have hlength : takeLength l = (size, behind) := by
        simp [takeLength, htake]
      simp only [htake, Option.bind_eq_bind, Option.bind_some] at h
      unfold takeString
      rw [hlength]
      dsimp only
      by_cases hnull : size = -1
      · rw [if_pos hnull, Option.some.injEq, Prod.mk.injEq] at h
        rw [if_neg (by omega), h.1, h.2]
      · rw [if_neg hnull] at h
        by_cases hsize : 0 ≤ size ∧ size < 2147483647
        · rw [if_pos hsize] at h ⊢
          cases hpad : takePadded ((size.toNat + 1) * 2) behind with
          | none => simp [hpad] at h
          | some q =>
              simp only [hpad, Option.bind_some, Option.some.injEq, Prod.mk.injEq] at h
              dsimp only
              rw [h.1, h.2]
        · rw [if_neg hsize] at h
          cases h

theorem readText_length {l : List UInt8} (h : (readText l).isSome = true) : 4 ≤ l.length := by
  by_contra hl
  rw [readText, takeInt32_none (by omega)] at h
  cases h

theorem Field.read_skip {f : Field} {l rest : List UInt8} {v : FieldValue}
    (h : f.read l = some (v, rest)) : rest = f.skip l := by
  cases f with
  | int32 =>
      obtain ⟨⟨w, behind⟩, htake, heq⟩ := Option.map_eq_some_iff.mp h
      obtain ⟨-, rfl⟩ := Prod.mk.inj heq
      exact (takeInt32_drop htake).2
  | string16 =>
      obtain ⟨⟨text, behind⟩, htext, heq⟩ := Option.map_eq_some_iff.mp h
      obtain ⟨-, rfl⟩ := Prod.mk.inj heq
      simp only [Field.skip, skipString, readText_takeString htext]

theorem readSequence_cons {f : Field} {fs : List Field} {l : List UInt8}
    {values : List FieldValue} :
    readSequence (f :: fs) l = some values ↔
      ∃ v vs, f.read l = some (v, f.skip l) ∧ readSequence fs (f.skip l) = some vs ∧
        values = v :: vs := by
  simp only [readSequence, Option.bind_eq_bind, Option.bind_eq_some_iff]
  constructor
  · rintro ⟨⟨v, rest⟩, hread, vs, hvs, heq⟩
    obtain rfl := Field.read_skip hread
    exact ⟨v, vs, hread, hvs, (Option.some.inj heq).symm⟩
  · rintro ⟨v, vs, hread, hvs, rfl⟩
    exact ⟨(v, f.skip l), hread, vs, hvs, rfl⟩

/-- A number at the front of the sequence, read strictly and by the code. -/
theorem readSequence_int {fs : List Field} {l : List UInt8} {values : List FieldValue}
    (h : readSequence (.int32 :: fs) l = some values) :
    ∃ n vs, (∀ old ok, readInt32 old ⟨l, ok⟩ = (n, ⟨l.drop 4, true⟩)) ∧
      readSequence fs (l.drop 4) = some vs ∧ values = .int n :: vs := by
  obtain ⟨v, vs, hread, hvs, rfl⟩ := readSequence_cons.mp h
  obtain ⟨⟨n, rest⟩, htake, heq⟩ := Option.map_eq_some_iff.mp hread
  obtain ⟨rfl, rfl⟩ := Prod.mk.inj heq
  refine ⟨n, vs, ?_, hvs, rfl⟩
  intro old ok
  simp only [readInt32, htake, Field.skip]

theorem readSequence_text {fs : List Field} {l : List UInt8} {values : List FieldValue}
    (h : readSequence (.string16 :: fs) l = some values) :
    ∃ t vs, (∀ ok, readString ⟨l, ok⟩ = (t, ⟨skipString l, ok⟩)) ∧
      readSequence fs (skipString l) = some vs ∧ values = .text t :: vs := by
  obtain ⟨v, vs, hread, hvs, rfl⟩ := readSequence_cons.mp h
  obtain ⟨⟨t, rest⟩, htext, heq⟩ := Option.map_eq_some_iff.mp hread
  obtain ⟨rfl, rfl⟩ := Prod.mk.inj heq
  refine ⟨t, vs, ?_, hvs, rfl⟩
  intro ok
  simp only [readString, skipString, readText_takeString htext]

theorem readSequence_nil {l : List UInt8} {values : List FieldValue}
    (h : readSequence [] l = some values) : values = [] :=
  (Option.some.inj h).symm

/-- Nothing is damaged in a sequence that can be read. -/
theorem stringsIntact_of_read {fs : List Field} {l : List UInt8} {values : List FieldValue}
    (h : readSequence fs l = some values) : StringsIntact fs l := by
  induction fs generalizing l values with
  | nil => trivial
  | cons f fs ih =>
      obtain ⟨v, vs, hread, hvs, -⟩ := readSequence_cons.mp h
      refine ⟨?_, ih hvs⟩
      rintro rfl
      obtain ⟨p, hp, -⟩ := Option.map_eq_some_iff.mp hread
      rw [hp]
      rfl

/-- A sequence with intact strings and all its numbers can be read. -/
theorem readSequence_isSome {fs : List Field} {l : List UInt8} (hstrings : StringsIntact fs l)
    (hints : IntsThere fs l) : ∃ values, readSequence fs l = some values := by
  induction fs generalizing l with
  | nil => exact ⟨[], rfl⟩
  | cons f fs ih =>
      obtain ⟨vs, hvs⟩ := ih hstrings.2 hints.2
      have hread : ∃ v, f.read l = some (v, f.skip l) := by
        cases f with
        | int32 =>
            obtain ⟨v, hv⟩ := takeInt32_some (hints.1 rfl)
            exact ⟨.int v, by simp [Field.read, hv, Field.skip]⟩
        | string16 =>
            obtain ⟨⟨text, rest⟩, htext⟩ := Option.isSome_iff_exists.mp (hstrings.1 rfl)
            refine ⟨.text text, ?_⟩
            simp [Field.read, htext, Field.skip, skipString, readText_takeString htext]
      obtain ⟨v, hv⟩ := hread
      exact ⟨v :: vs, readSequence_cons.mpr ⟨v, vs, hv, hvs, rfl⟩⟩

/-- When a dispatch function is faithful: `accepts` says when it calls `onRequest`,
and it must have all its numbers then if no string is damaged. -/
theorem faithful_iff {result : DispatchResult} {fields : List Field}
    {data : List FieldValue → Option RequestData} {l : List UInt8} {accepts : Prop}
    (hresult : result = .invalidCommandBlock ∨ result.isRequest = true)
    (haccepts : result.isRequest = true ↔ accepts)
    (hints : accepts → StringsIntact fields l → IntsThere fields l)
    (hvalues : ∀ values, readSequence fields l = some values → accepts →
      ∃ d, data values = some d ∧ result = .onRequest d) :
    Faithful result fields data l ↔ (accepts → StringsIntact fields l) := by
  constructor
  · intro hfaithful hacc
    cases hread : readSequence fields l with
    | some values => exact stringsIntact_of_read hread
    | none =>
        have hrejected := hfaithful.2 hread
        have hrequest := haccepts.mpr hacc
        rw [hrejected] at hrequest
        cases hrequest
  · intro hintact
    have hrequest : result.isRequest = true →
        ∃ values d, readSequence fields l = some values ∧ data values = some d ∧
          result = .onRequest d := by
      intro hreq
      have hacc := haccepts.mp hreq
      obtain ⟨values, hread⟩ := readSequence_isSome (hintact hacc) (hints hacc (hintact hacc))
      obtain ⟨d, hd, hr⟩ := hvalues values hread hacc
      exact ⟨values, d, hread, hd, hr⟩
    constructor
    · intro d hd
      obtain ⟨values, d', hread, hdata, hr⟩ := hrequest (by rw [hd]; rfl)
      obtain rfl : d = d' := by
        rw [hd] at hr
        exact DispatchResult.onRequest.inj hr
      exact ⟨values, hread, hdata⟩
    · intro hnone
      rcases hresult with hinvalid | hreq
      · exact hinvalid
      · obtain ⟨values, d, hread, -⟩ := hrequest hreq
        rw [hnone] at hread
        cases hread

/-! ## The four functions -/

/-- The payload of `dispatchSIM_IO`; the class byte comes with two requests only. -/
def simIoFields (withCla : Bool) : List Field :=
  (if withCla then [.int32] else []) ++
    [.int32, .int32, .string16, .int32, .int32, .int32, .string16, .string16, .string16]

def simIoData (b : Build) : List FieldValue → Option RequestData
  | [.int cla, .int command, .int fileid, .text path, .int p1, .int p2, .int p3, .text data,
      .text pin2, .text aidPtr] =>
      some (.simIo ⟨cla, command, fileid, path, p1, p2, p3, data, pin2, aidPtr⟩ (6 ≤ b.version))
  | [.int command, .int fileid, .text path, .int p1, .int p2, .int p3, .text data, .text pin2,
      .text aidPtr] =>
      some (.simIo ⟨0, command, fileid, path, p1, p2, p3, data, pin2, aidPtr⟩ (6 ≤ b.version))
  | _ => none

def callForwardFields : List Field := [.int32, .int32, .int32, .int32, .string16, .int32]

/-- An empty number stands for none. -/
def callForwardData : List FieldValue → Option RequestData
  | [.int status, .int reason, .int serviceClass, .int toa, .text number, .int timeSeconds] =>
      some (.callForward ⟨status, reason, serviceClass, toa,
        if number = some [] then none else number, timeSeconds⟩)
  | _ => none

def initialAttachApnFields : List Field := [.string16, .string16, .int32, .string16, .string16]

def initialAttachApnData : List FieldValue → Option RequestData
  | [.text apn, .text protocol, .int authtype, .text username, .text password] =>
      some (.initialAttachApn ⟨apn, protocol, authtype, username, password⟩)
  | _ => none

def smsWriteFields : List Field := [.int32, .string16, .string16]

def smsWriteData : List FieldValue → Option RequestData
  | [.int status, .text pdu, .text smsc] => some (.smsWrite ⟨status, pdu, smsc⟩)
  | _ => none

section Functions

variable (b : Build) (l : List UInt8)

theorem simIo_result (transmit : Bool) (c : Cursor) :
    dispatchSimIo b transmit c = .invalidCommandBlock ∨
      (dispatchSimIo b transmit c).isRequest = true := by
  unfold dispatchSimIo
  split
  dsimp only
  split
  · exact .inl rfl
  · exact .inr rfl

theorem callForward_result (c : Cursor) :
    dispatchCallForward b c = .invalidCommandBlock ∨
      (dispatchCallForward b c).isRequest = true := by
  unfold dispatchCallForward
  dsimp only
  split
  · exact .inl rfl
  · exact .inr rfl

theorem initialAttachApn_result (c : Cursor) :
    dispatchSetInitialAttachApn b c = .invalidCommandBlock ∨
      (dispatchSetInitialAttachApn b c).isRequest = true := by
  unfold dispatchSetInitialAttachApn
  dsimp only
  split
  · exact .inl rfl
  · exact .inr rfl

theorem smsWrite_result (c : Cursor) :
    dispatchSmsWrite b c = .invalidCommandBlock ∨ (dispatchSmsWrite b c).isRequest = true := by
  unfold dispatchSmsWrite
  dsimp only
  split
  · exact .inl rfl
  · exact .inr rfl

theorem simIo_faithful_iff (transmit : Bool) :
    Faithful (dispatchSimIo b transmit ⟨l, true⟩) (simIoFields (transmit && !b.variantLegacy))
        (simIoData b) l ↔
      (12 ≤ (skipString (l.drop (if transmit && !b.variantLegacy then 12 else 8))).length →
        StringsIntact (simIoFields (transmit && !b.variantLegacy)) l) := by
  apply faithful_iff (simIo_result b transmit _) (dispatchSimIo_isRequest (Alike.refl l))
  · cases hcla : transmit && !b.variantLegacy with
    | true =>
        intro hacc hstrings
        simp only [simIoFields, StringsIntact, IntsThere, Field.skip, if_true, List.cons_append,
          List.nil_append, List.drop_drop] at hacc hstrings ⊢
        have hpath := readText_length (hstrings.2.2.2.1 trivial)
        simp only [List.length_drop] at hpath ⊢
        simp
        omega
    | false =>
        intro hacc hstrings
        simp only [simIoFields, StringsIntact, IntsThere, Field.skip, Bool.false_eq_true, if_false,
          List.nil_append, List.drop_drop] at hacc hstrings ⊢
        have hpath := readText_length (hstrings.2.2.1 trivial)
        simp only [List.length_drop] at hpath ⊢
        simp
        omega
  · intro values hread _
    cases hcla : transmit && !b.variantLegacy with
    | true =>
        rw [hcla] at hread
        obtain ⟨cla, _, h₀, r₀, rfl⟩ := readSequence_int hread
        obtain ⟨command, _, h₁, r₁, rfl⟩ := readSequence_int r₀
        obtain ⟨fileid, _, h₂, r₂, rfl⟩ := readSequence_int r₁
        obtain ⟨path, _, h₃, r₃, rfl⟩ := readSequence_text r₂
        obtain ⟨p1, _, h₄, r₄, rfl⟩ := readSequence_int r₃
        obtain ⟨p2, _, h₅, r₅, rfl⟩ := readSequence_int r₄
        obtain ⟨p3, _, h₆, r₆, rfl⟩ := readSequence_int r₅
        obtain ⟨data, _, h₇, r₇, rfl⟩ := readSequence_text r₆
        obtain ⟨pin2, _, h₈, r₈, rfl⟩ := readSequence_text r₇
        obtain ⟨aidPtr, _, h₉, r₉, rfl⟩ := readSequence_text r₈
        obtain rfl := readSequence_nil r₉
        refine ⟨_, rfl, ?_⟩
        simp only [dispatchSimIo, hcla, if_true, h₀, h₁, h₂, h₃, h₄, h₅, h₆, h₇, h₈, h₉, Bool.not_true,
          Bool.false_eq_true, if_false]
    | false =>
        rw [hcla] at hread
        obtain ⟨command, _, h₁, r₁, rfl⟩ := readSequence_int hread
        obtain ⟨fileid, _, h₂, r₂, rfl⟩ := readSequence_int r₁
        obtain ⟨path, _, h₃, r₃, rfl⟩ := readSequence_text r₂
        obtain ⟨p1, _, h₄, r₄, rfl⟩ := readSequence_int r₃
        obtain ⟨p2, _, h₅, r₅, rfl⟩ := readSequence_int r₄
        obtain ⟨p3, _, h₆, r₆, rfl⟩ := readSequence_int r₅
        obtain ⟨data, _, h₇, r₇, rfl⟩ := readSequence_text r₆
        obtain ⟨pin2, _, h₈, r₈, rfl⟩ := readSequence_text r₇
        obtain ⟨aidPtr, _, h₉, r₉, rfl⟩ := readSequence_text r₈
        obtain rfl := readSequence_nil r₉
        refine ⟨_, rfl, ?_⟩
        simp only [dispatchSimIo, hcla, h₁, h₂, h₃, h₄, h₅, h₆, h₇, h₈, h₉, Bool.not_true,
          Bool.false_eq_true, if_false]

theorem callForward_faithful_iff :
    Faithful (dispatchCallForward b ⟨l, true⟩) callForwardFields callForwardData l ↔
      (4 ≤ (skipString (l.drop 16)).length → StringsIntact callForwardFields l) := by
  apply faithful_iff (callForward_result b _) (dispatchCallForward_isRequest (Alike.refl l))
  · intro hacc hstrings
    simp only [callForwardFields, StringsIntact, IntsThere, Field.skip, List.drop_drop]
      at hacc hstrings ⊢
    have hnumber := readText_length (hstrings.2.2.2.2.1 trivial)
    simp only [List.length_drop] at hnumber ⊢
    simp
    omega
  · intro values hread _
    obtain ⟨status, _, h₁, r₁, rfl⟩ := readSequence_int hread
    obtain ⟨reason, _, h₂, r₂, rfl⟩ := readSequence_int r₁
    obtain ⟨serviceClass, _, h₃, r₃, rfl⟩ := readSequence_int r₂
    obtain ⟨toa, _, h₄, r₄, rfl⟩ := readSequence_int r₃
    obtain ⟨number, _, h₅, r₅, rfl⟩ := readSequence_text r₄
    obtain ⟨timeSeconds, _, h₆, r₆, rfl⟩ := readSequence_int r₅
    obtain rfl := readSequence_nil r₆
    refine ⟨_, rfl, ?_⟩
    simp only [dispatchCallForward, h₁, h₂, h₃, h₄, h₅, h₆, Bool.not_true, Bool.false_eq_true,
      if_false]

theorem initialAttachApn_faithful_iff :
    Faithful (dispatchSetInitialAttachApn b ⟨l, true⟩) initialAttachApnFields
        initialAttachApnData l ↔
      (4 ≤ (skipString (skipString l)).length → StringsIntact initialAttachApnFields l) := by
  apply faithful_iff (initialAttachApn_result b _)
    (dispatchSetInitialAttachApn_isRequest (Alike.refl l))
  · intro hacc _
    simp [initialAttachApnFields, IntsThere, Field.skip, hacc]
  · intro values hread _
    obtain ⟨apn, _, h₁, r₁, rfl⟩ := readSequence_text hread
    obtain ⟨protocol, _, h₂, r₂, rfl⟩ := readSequence_text r₁
    obtain ⟨authtype, _, h₃, r₃, rfl⟩ := readSequence_int r₂
    obtain ⟨username, _, h₄, r₄, rfl⟩ := readSequence_text r₃
    obtain ⟨password, _, h₅, r₅, rfl⟩ := readSequence_text r₄
    obtain rfl := readSequence_nil r₅
    refine ⟨_, rfl, ?_⟩
    simp only [dispatchSetInitialAttachApn, h₁, h₂, h₃, h₄, h₅, Bool.not_true, Bool.false_eq_true,
      if_false]

theorem smsWrite_faithful_iff :
    Faithful (dispatchSmsWrite b ⟨l, true⟩) smsWriteFields smsWriteData l ↔
      (4 ≤ l.length ∧ (takeString (l.drop 4)).1.isSome →
        StringsIntact smsWriteFields l) := by
  apply faithful_iff (smsWrite_result b _) (dispatchSmsWrite_isRequest (Alike.refl l))
  · intro hacc _
    simp [smsWriteFields, IntsThere, hacc.1]
  · intro values hread hacc
    obtain ⟨status, _, h₁, r₁, rfl⟩ := readSequence_int hread
    obtain ⟨pdu, _, h₂, r₂, rfl⟩ := readSequence_text r₁
    obtain ⟨smsc, _, h₃, r₃, rfl⟩ := readSequence_text r₂
    obtain rfl := readSequence_nil r₃
    have hpdu : pdu.isNone = false := by
      have heq : (takeString (l.drop 4)).1 = pdu := congrArg Prod.fst (h₂ true)
      rw [← heq]
      simpa using hacc.2
    refine ⟨_, rfl, ?_⟩
    simp only [dispatchSmsWrite, h₁, h₂, h₃, hpdu, Bool.not_true, Bool.or_self, Bool.false_eq_true,
      if_false]

end Functions

/-- **Requests of numbers and strings.**  On every parcel each of the four functions
passes on exactly the fields of a complete sequence, and rejects every other
parcel, if and only if the parcel lacks the last number that the function checks
(for a message to store: the status or the PDU) or all its strings are intact. -/
theorem mixed_requests_faithful_iff (b : Build) (l : List UInt8) :
    (∀ transmit,
      Faithful (dispatchSimIo b transmit ⟨l, true⟩) (simIoFields (transmit && !b.variantLegacy))
          (simIoData b) l ↔
        (12 ≤ (skipString (l.drop (if transmit && !b.variantLegacy then 12 else 8))).length →
          StringsIntact (simIoFields (transmit && !b.variantLegacy)) l)) ∧
    (Faithful (dispatchCallForward b ⟨l, true⟩) callForwardFields callForwardData l ↔
      (4 ≤ (skipString (l.drop 16)).length → StringsIntact callForwardFields l)) ∧
    (Faithful (dispatchSetInitialAttachApn b ⟨l, true⟩) initialAttachApnFields
        initialAttachApnData l ↔
      (4 ≤ (skipString (skipString l)).length → StringsIntact initialAttachApnFields l)) ∧
    (Faithful (dispatchSmsWrite b ⟨l, true⟩) smsWriteFields smsWriteData l ↔
      (4 ≤ l.length ∧ (takeString (l.drop 4)).1.isSome → StringsIntact smsWriteFields l)) :=
  ⟨simIo_faithful_iff b l, callForward_faithful_iff b l, initialAttachApn_faithful_iff b l,
    smsWrite_faithful_iff b l⟩

/-- A build for the examples. -/
def plainBuild : Build where
  version := 6
  variantLegacy := true
  noCellInfoList := false
  stack := 8192
  junk := 0
  junkByte := 0

/-- `READ BINARY` of a file whose path claims 100 characters that are not there. -/
def damagedPath : List UInt8 :=
  encodeInt32 176 ++ encodeInt32 28476 ++ encodeInt32 100 ++ encodeInt32 0 ++ encodeInt32 0 ++
    encodeInt32 10

/-- It is passed on without a path. -/
theorem damaged_path_accepted :
    ¬∀ (b : Build) (transmit : Bool) (l : List UInt8),
      Faithful (dispatchSimIo b transmit ⟨l, true⟩) (simIoFields (transmit && !b.variantLegacy))
        (simIoData b) l := by
  intro hall
  have haccepted : dispatchSimIo plainBuild false ⟨damagedPath, true⟩ =
      .onRequest (.simIo ⟨0, 176, 28476, none, 0, 0, 10, none, none, none⟩ true) := by
    decide +kernel
  obtain ⟨values, hread, -⟩ := (hall plainBuild false damagedPath).1 _ haccepted
  have hnone : readSequence (simIoFields (false && !plainBuild.variantLegacy)) damagedPath =
      none := by
    decide +kernel
  rw [hnone] at hread
  cases hread

end Libril
