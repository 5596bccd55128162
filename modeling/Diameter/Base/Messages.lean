import Diameter.Protocol.Copy
import Mathlib.Data.FinEnum

/-!
# Base.Messages

How messages are put together: new requests, the AVPs that are added to them, and the answer a
request starts, which echoes its Proxy-Info AVPs.

Identifiers that `NewMessage` draws at random are an argument here.
-/

namespace Diameter

open Lib Datatype Dict

variable (drawn : Drawn) (m : Message) (resultCode : UInt32)

def Base.vendorIDCode : UInt32 := 266
def Base.supportedVendorIDCode : UInt32 := 265

/-! ## New messages -/

/-- The numbers `NewMessage` draws for the identifiers it is not given. -/
structure Drawn where
  hopByHop : UInt32
  endToEnd : UInt32

def newMessage (cmd : UInt32) (flags : UInt8) (appid hopbyhop endtoend : UInt32) : Message where
  header :=
    { version := 1
      messageLength := UInt32.ofNat headerLength
      commandFlags := flags
      commandCode := cmd
      applicationID := appid
      hopByHopID := if hopbyhop = 0 then drawn.hopByHop else hopbyhop
      endToEndID := if endtoend = 0 then drawn.endToEnd else endtoend }

/-- Whether requests of the command are sent with the P bit. -/
def Dict.Snapshot.proxiable (s : Snapshot) (appid cmd : UInt32) : Bool :=
  match s.findCommand appid cmd with
  | .ok command => command.request.proxiable == some true
  | .error _ => false

def newRequest (cmd appid : UInt32) (s : Snapshot) : Message :=
  newMessage drawn cmd (if s.proxiable appid cmd then requestFlag ||| proxiableFlag else requestFlag)
    appid 0 0

namespace Message

/-- `Message.AddAVP`, with the octets of an echoed Proxy-Info. -/
def addItem (i : Item) : Message :=
  { m with
    items := m.items ++ [i]
    header := { m.header with
      messageLength := m.header.messageLength + UInt32.ofNat ((i.avp.map AVP.len).getD 0) } }

def addAVP (a : AVP) : Message := m.addItem ⟨some a, none⟩

def addAVPs (as : List AVP) : Message := as.foldl addAVP m

def insertAVP (a : AVP) : Message :=
  { m with
    items := ⟨some a, none⟩ :: m.items
    header := { m.header with messageLength := m.header.messageLength + UInt32.ofNat a.len } }

end Message

/-- The check of locally supplied addresses in `Message.NewAVP`. -/
def checkNewData : Data AVP → Except String Unit
  | .value (.address a) | .addressPtr (some a) => a.valid
  | .addressPtr none => .error "nil Address"
  | _ => .ok ()

/-- `Message.NewAVP`. -/
def Message.newAVP (code : UInt32) (flags : UInt8) (vendor : UInt32)
    (data : Data AVP) : Except String Message :=
  match checkNewData data with
  | .error e => .error e
  | .ok () => .ok (m.addAVP (Diameter.newAVP code flags vendor data))

/-! ## Answers -/

/-- The flags an echo keeps: the reserved ones are cleared. -/
def echoFlags (flags : UInt8) : UInt8 := flags &&& ~~~0x1f

mutual

/-- `cloneEchoAVP`. -/
def AVP.echo : AVP → AVP
  | ⟨code, flags, length, vendorID, .value v⟩ =>
    ⟨code, echoFlags flags, length, vendorID, .value v.clone⟩
  | ⟨code, flags, length, vendorID, .group ms⟩ =>
    ⟨code, echoFlags flags, length, vendorID, .group (echoMembers ms)⟩
  | ⟨code, flags, length, vendorID, data⟩ => ⟨code, echoFlags flags, length, vendorID, data⟩

def echoMembers : List (Option AVP) → List (Option AVP)
  | [] => []
  | none :: ms => none :: echoMembers ms
  | some a :: ms => some a.echo :: echoMembers ms

end

/-- The copy of a Proxy-Info with the octets it is exempt with. -/
def echoItem (a : AVP) : Item := ⟨some a.echo, a.echo.serialize.toOption⟩

def AVP.isProxyInfo (a : AVP) : Bool := a.code == proxyInfoCode && a.vendorID == 0

/-- The top-level Proxy-Info AVPs, in order. -/
def Message.proxyInfos : List AVP :=
  (m.avps.filterMap id).filter AVP.isProxyInfo

/-- The header of an answer: of the flags only P is copied, and E set for protocol errors. -/
def Message.answerHeader : Header :=
  let h := (newMessage drawn m.header.commandCode (m.header.commandFlags &&& proxiableFlag)
    m.header.applicationID m.header.hopByHopID m.header.endToEndID).header
  { h with
    hopByHopID := m.header.hopByHopID
    endToEndID := m.header.endToEndID
    commandFlags :=
      if protocolErrorCode resultCode then h.commandFlags ||| errorFlag else h.commandFlags }

def Base.resultCodeAVP : AVP :=
  newAVP resultCodeCode mbit 0 (.value (.unsigned32 resultCode))

/-- `Message.Answer`. -/
def Message.answer : Message :=
  let nm : Message := { header := m.answerHeader drawn resultCode }
  let nm := if resultCode ≠ 0 then nm.addAVP (Base.resultCodeAVP resultCode) else nm
  (m.proxyInfos.map echoItem).foldl Message.addItem nm

/-! ## What is added -/

namespace Message

/-- What a message is, but for its length and its AVPs. -/
structure SameHeader (m m' : Message) : Prop where
  commandFlags : m'.header.commandFlags = m.header.commandFlags
  commandCode : m'.header.commandCode = m.header.commandCode
  applicationID : m'.header.applicationID = m.header.applicationID
  hopByHopID : m'.header.hopByHopID = m.header.hopByHopID
  endToEndID : m'.header.endToEndID = m.header.endToEndID

theorem SameHeader.refl (m : Message) : m.SameHeader m := ⟨rfl, rfl, rfl, rfl, rfl⟩

theorem SameHeader.trans {m m' m'' : Message} (h : m.SameHeader m') (h' : m'.SameHeader m'') :
    m.SameHeader m'' :=
  ⟨h'.commandFlags.trans h.commandFlags, h'.commandCode.trans h.commandCode,
    h'.applicationID.trans h.applicationID, h'.hopByHopID.trans h.hopByHopID,
    h'.endToEndID.trans h.endToEndID⟩

theorem addItem_items (i : Item) : (m.addItem i).items = m.items ++ [i] := rfl

theorem addItem_header (i : Item) : m.SameHeader (m.addItem i) :=
  ⟨rfl, rfl, rfl, rfl, rfl⟩

theorem foldl_addItem_items (is : List Item) (m : Message) :
    (is.foldl addItem m).items = m.items ++ is := by
  induction is generalizing m with
  | nil => simp
  | cons i is ih => rw [List.foldl_cons, ih, addItem_items, List.append_assoc, List.singleton_append]

theorem foldl_addItem_header (is : List Item) (m : Message) :
    m.SameHeader (is.foldl addItem m) := by
  induction is generalizing m with
  | nil => exact .refl m
  | cons i is ih => exact (m.addItem_header i).trans (ih _)

theorem addAVPs_eq (as : List AVP) :
    m.addAVPs as = (as.map fun a => ⟨some a, none⟩).foldl addItem m := by
  unfold addAVPs
  rw [List.foldl_map]
  rfl

theorem newAVP_ok {m m' : Message} {code : UInt32} {flags : UInt8} {vendor : UInt32}
    {data : Data AVP} :
    m.newAVP code flags vendor data = .ok m' ↔
      checkNewData data = .ok () ∧ m' = m.addAVP (Diameter.newAVP code flags vendor data) := by
  unfold newAVP
  split
  next e he =>
    rw [he]
    exact ⟨(fun h => by cases h), fun h => by cases h.1⟩
  next hok =>
    rw [hok]
    exact ⟨fun h => ⟨rfl, by cases h; rfl⟩, fun h => by rw [h.2]⟩

theorem answer_items : (m.answer drawn resultCode).items =
      (if resultCode ≠ 0 then [⟨some (Base.resultCodeAVP resultCode), none⟩] else []) ++
        m.proxyInfos.map echoItem := by
  unfold answer
  rw [foldl_addItem_items]
  split <;> rfl

theorem answer_header :
    SameHeader { header := m.answerHeader drawn resultCode } (m.answer drawn resultCode) := by
  unfold answer
  refine SameHeader.trans ?_ (foldl_addItem_header _ _)
  split
  · exact addItem_header _ _
  · exact .refl _

theorem answerFlags_not_request : ∀ flags : UInt8,
    (flags &&& proxiableFlag) &&& requestFlag = 0 ∧
      (flags &&& proxiableFlag ||| errorFlag) &&& requestFlag = 0 := by
  decide +kernel

theorem answerHeader_answers : Answers (m.answerHeader drawn resultCode) m.header := by
  refine ⟨?_, rfl, rfl, rfl⟩
  obtain ⟨hplain, herror⟩ := answerFlags_not_request m.header.commandFlags
  unfold Header.isRequest answerHeader newMessage
  dsimp only
  split
  · rw [herror]
    rfl
  · rw [hplain]
    rfl

theorem SameHeader.answers {m m' : Message} {h : Header} (hsame : m.SameHeader m')
    (hm : Answers m.header h) : Answers m'.header h where
  isAnswer := by
    unfold Header.isRequest
    rw [hsame.commandFlags]
    exact hm.isAnswer
  commandCode := hsame.commandCode.trans hm.commandCode
  hopByHopID := hsame.hopByHopID.trans hm.hopByHopID
  endToEndID := hsame.endToEndID.trans hm.endToEndID

theorem answer_answers : Answers (m.answer drawn resultCode).header m.header :=
  (m.answer_header drawn resultCode).answers (m.answerHeader_answers drawn resultCode)

end Message

end Diameter
