import AgoricSdk.Lib.DelimitedText
import AgoricSdk.Lib.Throwing
import AgoricSdk.SwingSet.Slots
import Mathlib.Data.List.TakeWhile

/-!
The messages that two comms vats exchange, as texts: how the sender writes its
deliveries, its batches of resolutions and its batches of garbage collection,
and how the receiver takes them apart. Nothing is escaped. The references are
those of the c-lists, already translated for the recipient.
-/

namespace AgoricSdk.Comms

open DelimitedText
open SwingSet (JSString isStrWhiteSpace natBigInt decimal natBigInt_decimal decimal_isDigit)

section RemoteSlots

inductive RemoteType where
  | object
  | promise
  | resolver
  deriving DecidableEq

/-- A reference between two machines, whose index the recipient or the sender allocated. -/
structure RemoteSlot where
  type : RemoteType
  allocatedByRecipient : Bool
  id : Nat
  deriving DecidableEq

def RemoteType.chars : RemoteType → JSString
  | .object => ['r', 'o']
  | .promise => ['r', 'p']
  | .resolver => ['r', 'r']

def makeRemoteSlot (slot : RemoteSlot) : JSString :=
  slot.type.chars ++ (if slot.allocatedByRecipient then '+' else '-') :: decimal slot.id

def typeOfChars : JSString → Option RemoteType
  | ['r', 'o'] => some .object
  | ['r', 'p'] => some .promise
  | ['r', 'r'] => some .resolver
  | _ => none

/-- `none` where it throws. -/
def parseRemoteSlot (s : JSString) : Option RemoteSlot := do
  let type ← typeOfChars (s.take 2)
  let allocatedByRecipient ← match s[2]? with
    | some '+' => some true
    | some '-' => some false
    | _ => none
  let id ← natBigInt (s.drop 3)
  return { type, allocatedByRecipient, id }

end RemoteSlots

inductive WireFault where
  | lacksSeqNumDelimiter (message : JSString)
  | unexpectedRecvSeqNum (seqNum : JSString)
  | lacksAckSeqNumDelimiter (message : JSString)
  | unrecognizedCommand (command : JSString)
  | missingSemicolonInDeliver (message : JSString)
  | missingSemicolonInResolve (submsg : JSString)
  | missingReference
  | assertion
  | unknownGCMessageType (type : JSString)
  | notOfType (remoteSlot : JSString) (type : RemoteType)
  deriving DecidableEq

def insistRemoteType (type : RemoteType) (remoteSlot : JSString) : Except WireFault Unit :=
  match parseRemoteSlot remoteSlot with
  | none => throw (.notOfType remoteSlot type)
  | some slot => if slot.type = type then pure () else throw (.notOfType remoteSlot type)

structure CapData where
  body : JSString
  slots : List JSString
  deriving DecidableEq

structure Resolution where
  rpid : JSString
  rejected : Bool
  data : CapData
  deriving DecidableEq

structure GCActions where
  dropExports : List JSString := []
  retireExports : List JSString := []
  retireImports : List JSString := []
  deriving DecidableEq

inductive GCType where
  | dropExport
  | retireExport
  | retireImport
  deriving DecidableEq

def GCType.name : GCType → JSString
  | .dropExport => "dropExport".toList
  | .retireExport => "retireExport".toList
  | .retireImport => "retireImport".toList

def GCType.ofName (name : JSString) : Option GCType :=
  [GCType.dropExport, .retireExport, .retireImport].find? fun type => type.name = name

def GCActions.append (type : GCType) (rrefs : List JSString) (gc : GCActions) : GCActions :=
  match type with
  | .dropExport => { gc with dropExports := gc.dropExports ++ rrefs }
  | .retireExport => { gc with retireExports := gc.retireExports ++ rrefs }
  | .retireImport => { gc with retireImports := gc.retireImports ++ rrefs }

/-- What the receiver makes of a message. -/
inductive Command where
  | deliver (target : JSString) (methargs : CapData) (result : Option JSString)
  | resolve (resolutions : List Resolution)
  | gc (actions : GCActions)
  deriving DecidableEq

section Send

/-- The slots as both `sendToRemote` and `resolveToRemote` write them. -/
def slotsText (slots : List JSString) : JSString :=
  let ss := [':'].intercalate slots
  if ss = [] then ss else ':' :: ss

def sendToRemote (target : JSString) (methargs : CapData) (result : Option JSString) : JSString :=
  "deliver".toList ++ ':' :: target ++ ':' :: result.getD [] ++ slotsText methargs.slots ++
    ';' :: methargs.body

def resolutionText (resolution : Resolution) : JSString :=
  let rejectedTag := if resolution.rejected then "reject" else "fulfill"
  "resolve".toList ++ ':' :: rejectedTag.toList ++ ':' :: resolution.rpid ++
    slotsText resolution.data.slots ++ ';' :: resolution.data.body

def resolveToRemote (resolutions : List Resolution) : JSString :=
  ['\n'].intercalate (resolutions.map resolutionText)

def gcLine (type : GCType) (rref : JSString) : JSString :=
  "gc".toList ++ ':' :: type.name ++ ':' :: rref

def gcLines (actions : GCActions) : List JSString :=
  actions.dropExports.map (gcLine .dropExport) ++ actions.retireExports.map (gcLine .retireExport) ++
    actions.retireImports.map (gcLine .retireImport)

def gcToRemote (actions : GCActions) : JSString :=
  ['\n'].intercalate (gcLines actions)

def Command.text : Command → JSString
  | .deliver target methargs result => sendToRemote target methargs result
  | .resolve resolutions => resolveToRemote resolutions
  | .gc actions => gcToRemote actions

/-- The two numbers are those of the sender for its remote. -/
def transmit (sendExplicitSeqNums : Bool) (nextSendSeqNum lastReceivedSeqNum : Nat)
    (msg : JSString) : JSString :=
  let seqNum := if sendExplicitSeqNums then decimal nextSendSeqNum else []
  seqNum ++ ':' :: (decimal lastReceivedSeqNum ++ ':' :: msg)

end Send

section Receive

/-- Whether a minus stands first, and what follows the sign. -/
def takeSign : JSString → Bool × JSString
  | '-' :: s => (true, s)
  | '+' :: s => (false, s)
  | s => (false, s)

/-- `parseInt(s, 10)`, with `none` for `NaN`. -/
def parseInt (s : JSString) : Option Int :=
  let (negative, s) := takeSign (s.dropWhile isStrWhiteSpace)
  let digits := s.takeWhile Char.isDigit
  if digits = [] then none
  else
    let n : Int := Nat.ofDigitChars 10 digits 0
    some (if negative then -n else n)

def orFail {α : Type} (fault : WireFault) : Option α → Except WireFault α
  | none => .error fault
  | some a => .ok a

/-- `none` where a field is missing: the c-lists refuse `undefined` for the target, and it has
no `length` for the result. -/
def deliverFields (body : JSString) : List JSString → Option Command
  | _ :: target :: result :: slots =>
    some (.deliver target { body, slots } (if result = [] then none else some result))
  | _ => none

def sendFromRemote (message : JSString) : Except WireFault Command := do
  let (head, body) ← orFail (.missingSemicolonInDeliver message) (cutAt ';' message)
  orFail .missingReference (deliverFields body (head.splitOn ':'))

def resolutionFields (body : JSString) : List JSString → Except WireFault Resolution
  | name :: tag :: pieces => do
    if name ≠ "resolve".toList then throw .assertion
    let rejected := decide (tag = "reject".toList)
    if ¬ (rejected ∨ tag = "fulfill".toList) then throw .assertion
    match pieces with
    -- `insistRemoteType` refuses `undefined`.
    | [] => throw .missingReference
    | rpid :: slots => return { rpid, rejected, data := { body, slots } }
  | _ => throw .assertion

def parseResolution (submsg : JSString) : Except WireFault Resolution := do
  let (head, body) ← orFail (.missingSemicolonInResolve submsg) (cutAt ';' submsg)
  resolutionFields body (head.splitOn ':')

def parseResolveMessage (message : JSString) : Except WireFault (List Resolution) :=
  (message.splitOn '\n').mapM parseResolution

def resolveFromRemote (message : JSString) : Except WireFault Command := do
  let resolutions ← parseResolveMessage message
  resolutions.forM fun resolution => insistRemoteType .promise resolution.rpid
  return .resolve resolutions

def addGCAction (gc : GCActions) (submsg : JSString) : Except WireFault GCActions := do
  match submsg.splitOn ':' with
  | name :: pieces =>
    if name ≠ "gc".toList then throw .assertion
    match pieces with
    | [] => throw (.unknownGCMessageType [])
    | name :: rref =>
      match GCType.ofName name, rref with
      | none, _ => throw (.unknownGCMessageType name)
      | some _, [] => throw .missingReference
      | some type, rref :: _ =>
        insistRemoteType .object rref
        return gc.append type [rref]
  | [] => throw .assertion

def parseGCMessage (message : JSString) : Except WireFault GCActions :=
  (message.splitOn '\n').foldlM addGCAction {}

def commandFromRemote (msgBody : JSString) : Except WireFault Command :=
  let command := msgBody.takeWhile (· ≠ ':')
  if command = "deliver".toList then sendFromRemote msgBody
  else if command = "resolve".toList then resolveFromRemote msgBody
  else if command = "gc".toList then Command.gc <$> parseGCMessage msgBody
  else throw (.unrecognizedCommand command)

/-- The number acknowledged, and the command. The number is that of the messages
received before this one. -/
def messageFromRemote (lastReceivedSeqNum : Nat) (message : JSString) :
    Except WireFault (Option Int × Command) := do
  let (seqNum, afterSeqNum) ← orFail (.lacksSeqNumDelimiter message) (cutAt ':' message)
  let recvSeqNum := lastReceivedSeqNum + 1
  if seqNum ≠ [] ∧ seqNum ≠ decimal recvSeqNum then throw (.unexpectedRecvSeqNum seqNum)
  let (ackText, msgBody) ← orFail (.lacksAckSeqNumDelimiter message) (cutAt ':' afterSeqNum)
  return (parseInt ackText, ← commandFromRemote msgBody)

end Receive

/-! ### What the comms vat can transmit -/

abbrev RemotePromise := { slot : RemoteSlot // slot.type = .promise }

abbrev RemoteObject := { slot : RemoteSlot // slot.type = .object }

structure RemoteResolution where
  rpid : RemotePromise
  rejected : Bool
  slots : List RemoteSlot
  body : JSString

/-- A batch is not empty: of resolutions there is a first, and a remote is sent only the
garbage that there is. -/
inductive WireMessage where
  | deliver (target : RemoteSlot) (result : Option RemotePromise) (slots : List RemoteSlot)
    (body : JSString)
  | resolve (first : RemoteResolution) (others : List RemoteResolution)
  | gc (dropExports retireExports retireImports : List RemoteObject)
    (nonempty : dropExports ++ retireExports ++ retireImports ≠ [])

def RemoteResolution.resolution (resolution : RemoteResolution) : Resolution where
  rpid := makeRemoteSlot resolution.rpid
  rejected := resolution.rejected
  data := { body := resolution.body, slots := resolution.slots.map makeRemoteSlot }

def objectTexts (slots : List RemoteObject) : List JSString :=
  slots.map fun slot => makeRemoteSlot slot.val

def WireMessage.command : WireMessage → Command
  | .deliver target result slots body =>
    .deliver (makeRemoteSlot target) { body, slots := slots.map makeRemoteSlot }
      (result.map fun slot => makeRemoteSlot slot.val)
  | .resolve first others => .resolve ((first :: others).map RemoteResolution.resolution)
  | .gc dropExports retireExports retireImports _ =>
    .gc { dropExports := objectTexts dropExports
          retireExports := objectTexts retireExports
          retireImports := objectTexts retireImports }

/-- No body of a batch of resolutions has a newline. -/
def WireMessage.OneLineBodies : WireMessage → Prop
  | .resolve first others => ∀ resolution ∈ first :: others, '\n' ∉ resolution.body
  | _ => True

section References

/-- The characters of a reference. -/
def isReferenceChar (c : Char) : Bool := c.isDigit || c ∈ ['r', 'o', 'p', '+', '-']

theorem isReferenceChar_of_mem {slot : RemoteSlot} {c : Char} (h : c ∈ makeRemoteSlot slot) :
    isReferenceChar c = true := by
  obtain ⟨type, allocatedByRecipient, id⟩ := slot
  unfold makeRemoteSlot at h
  rcases List.mem_append.mp h with h | h
  · cases type <;> rcases List.mem_cons.mp h with rfl | h
    all_goals first
      | rfl
      | (obtain rfl := List.mem_singleton.mp h
         rfl)
  · rcases List.mem_cons.mp h with rfl | h
    · cases allocatedByRecipient <;> rfl
    · unfold isReferenceChar
      rw [decimal_isDigit h, Bool.true_or]

theorem notMem_makeRemoteSlot {slot : RemoteSlot} {c : Char} (h : isReferenceChar c = false) :
    c ∉ makeRemoteSlot slot := by
  intro hmem
  rw [isReferenceChar_of_mem hmem] at h
  cases h

theorem makeRemoteSlot_ne_nil (slot : RemoteSlot) : makeRemoteSlot slot ≠ [] := by
  unfold makeRemoteSlot
  exact List.append_ne_nil_of_right_ne_nil _ (List.cons_ne_nil _ _)

theorem parseRemoteSlot_makeRemoteSlot (slot : RemoteSlot) :
    parseRemoteSlot (makeRemoteSlot slot) = some slot := by
  obtain ⟨type, allocatedByRecipient, id⟩ := slot
  cases type <;> cases allocatedByRecipient <;>
    simp [parseRemoteSlot, makeRemoteSlot, RemoteType.chars, typeOfChars, natBigInt_decimal]

theorem insistRemoteType_makeRemoteSlot {slot : RemoteSlot} {type : RemoteType}
    (h : slot.type = type) : insistRemoteType type (makeRemoteSlot slot) = .ok () := by
  unfold insistRemoteType
  rw [parseRemoteSlot_makeRemoteSlot]
  exact if_pos h

end References

section Fields

theorem slotsText_references (slots : List RemoteSlot) :
    slotsText (slots.map makeRemoteSlot) =
      (slots.map makeRemoteSlot).flatMap fun field => ':' :: field := by
  unfold slotsText
  cases slots with
  | nil => rfl
  | cons slot slots =>
    have hne : [':'].intercalate ((slot :: slots).map makeRemoteSlot) ≠ [] := by
      rw [List.map_cons, intercalate_cons]
      exact List.append_ne_nil_of_left_ne_nil (makeRemoteSlot_ne_nil slot) _
    rw [if_neg hne, List.map_cons, intercalate_cons, List.flatMap_cons, List.cons_append]

/-- The head of a message, whose fields are read back one by one. -/
structure IsHead (head : JSString) (fields : List JSString) : Prop where
  eq : head = [':'].intercalate fields
  nonempty : fields ≠ []
  noColon : ∀ field ∈ fields, ':' ∉ field
  noSemicolon : ∀ field ∈ fields, ';' ∉ field

variable {head : JSString} {fields : List JSString}

theorem IsHead.cutAt (h : IsHead head fields) (body : JSString) :
    cutAt ';' (head ++ ';' :: body) = some (head, body) := by
  rw [h.eq]
  exact cutAt_intercalate (by decide) h.noSemicolon body

theorem IsHead.splitOn (h : IsHead head fields) : head.splitOn ':' = fields := by
  rw [h.eq]
  exact List.splitOn_intercalate ':' h.noColon h.nonempty

theorem isHead_of_fields {names : List JSString} (hnames : names ≠ [])
    (hcolon : ∀ name ∈ names, ':' ∉ name) (hsemicolon : ∀ name ∈ names, ';' ∉ name)
    (slots : List RemoteSlot) :
    IsHead ([':'].intercalate (names ++ slots.map makeRemoteSlot))
      (names ++ slots.map makeRemoteSlot) where
  eq := rfl
  nonempty := List.append_ne_nil_of_left_ne_nil hnames _
  noColon field hfield := by
    rcases List.mem_append.mp hfield with h | h
    · exact hcolon field h
    · obtain ⟨slot, -, rfl⟩ := List.mem_map.mp h
      exact notMem_makeRemoteSlot (by decide)
  noSemicolon field hfield := by
    rcases List.mem_append.mp hfield with h | h
    · exact hsemicolon field h
    · obtain ⟨slot, -, rfl⟩ := List.mem_map.mp h
      exact notMem_makeRemoteSlot (by decide)

end Fields

section Deliver

variable (target : RemoteSlot) (result : Option RemotePromise) (slots : List RemoteSlot)
  (body : JSString)

/-- The text of an optional result. -/
abbrev resultText : JSString := (result.map fun slot => makeRemoteSlot slot.val).getD []

theorem notMem_resultText {c : Char} (h : isReferenceChar c = false) : c ∉ resultText result := by
  cases result with
  | none => exact List.not_mem_nil
  | some slot => exact notMem_makeRemoteSlot h

theorem resultText_cases : (if resultText result = [] then none else some (resultText result)) =
    result.map fun slot => makeRemoteSlot slot.val := by
  cases result with
  | none => rfl
  | some slot => exact if_neg (makeRemoteSlot_ne_nil slot)

theorem sendFromRemote_text :
    sendFromRemote (WireMessage.deliver target result slots body).command.text =
      .ok (WireMessage.deliver target result slots body).command := by
  let names := ["deliver".toList, makeRemoteSlot target, resultText result]
  have hhead : IsHead ([':'].intercalate (names ++ slots.map makeRemoteSlot))
      (names ++ slots.map makeRemoteSlot) := by
    apply isHead_of_fields
    case hnames => exact List.cons_ne_nil _ _
    case hcolon =>
      simp only [names, List.forall_mem_cons]
      exact ⟨by decide, notMem_makeRemoteSlot (by decide), notMem_resultText result (by decide),
        nofun⟩
    case hsemicolon =>
      simp only [names, List.forall_mem_cons]
      exact ⟨by decide, notMem_makeRemoteSlot (by decide), notMem_resultText result (by decide),
        nofun⟩
  have htext : (WireMessage.deliver target result slots body).command.text =
      [':'].intercalate (names ++ slots.map makeRemoteSlot) ++ ';' :: body := by
    rw [List.cons_append, intercalate_cons, List.cons_append, List.cons_append, List.nil_append,
      List.flatMap_cons, List.flatMap_cons, ← slotsText_references, ← List.append_assoc,
      ← List.append_assoc]
    rfl
  rw [htext]
  apply bind_eq_ok.mpr
  refine ⟨_, congrArg (orFail _) (hhead.cutAt body), ?_⟩
  dsimp only
  rw [hhead.splitOn]
  show orFail _ (some (Command.deliver _ _ (if resultText result = [] then _ else _))) = _
  rw [resultText_cases]
  rfl

end Deliver

section Resolve

/-- What stands before the body of a resolution. -/
def resolutionHead (resolution : RemoteResolution) : JSString :=
  [':'].intercalate (["resolve".toList, (if resolution.rejected then "reject" else "fulfill").toList,
    makeRemoteSlot resolution.rpid] ++ resolution.slots.map makeRemoteSlot)

theorem resolutionText_eq (resolution : RemoteResolution) :
    resolutionText resolution.resolution = resolutionHead resolution ++ ';' :: resolution.body := by
  unfold resolutionHead
  rw [List.cons_append, intercalate_cons, List.cons_append, List.cons_append, List.nil_append,
    List.flatMap_cons, List.flatMap_cons, ← slotsText_references, ← List.append_assoc,
    ← List.append_assoc]
  rfl

theorem parseResolution_text (resolution : RemoteResolution) :
    parseResolution (resolutionText resolution.resolution) = .ok resolution.resolution := by
  have hhead : IsHead (resolutionHead resolution)
      (["resolve".toList, (if resolution.rejected then "reject" else "fulfill").toList,
        makeRemoteSlot resolution.rpid] ++ resolution.slots.map makeRemoteSlot) := by
    apply isHead_of_fields
    case hnames => exact List.cons_ne_nil _ _
    case hcolon =>
      simp only [List.forall_mem_cons]
      refine ⟨by decide, ?_, notMem_makeRemoteSlot (by decide), nofun⟩
      split <;> decide
    case hsemicolon =>
      simp only [List.forall_mem_cons]
      refine ⟨by decide, ?_, notMem_makeRemoteSlot (by decide), nofun⟩
      split <;> decide
  rw [resolutionText_eq]
  apply bind_eq_ok.mpr
  refine ⟨_, congrArg (orFail _) (hhead.cutAt resolution.body), ?_⟩
  dsimp only
  rw [hhead.splitOn]
  unfold RemoteResolution.resolution
  cases resolution.rejected <;> rfl

theorem newline_notMem_text {resolution : RemoteResolution} (h : '\n' ∉ resolution.body) :
    '\n' ∉ resolutionText resolution.resolution := by
  rw [resolutionText_eq]
  intro hmem
  rcases List.mem_append.mp hmem with hmem | hmem
  · rcases mem_intercalate hmem with hmem | ⟨field, hfield, hmem⟩
    · exact absurd hmem (by decide)
    · rcases List.mem_append.mp hfield with hfield | hfield
      · rcases List.mem_cons.mp hfield with rfl | hfield
        · exact absurd hmem (by decide)
        · rcases List.mem_cons.mp hfield with rfl | hfield
          · split at hmem <;> exact absurd hmem (by decide)
          · obtain rfl := List.mem_singleton.mp hfield
            exact notMem_makeRemoteSlot (by decide) hmem
      · obtain ⟨slot, -, rfl⟩ := List.mem_map.mp hfield
        exact notMem_makeRemoteSlot (by decide) hmem
  · rcases List.mem_cons.mp hmem with hmem | hmem
    · exact absurd hmem (by decide)
    · exact h hmem

theorem orFail_eq_ok {α : Type} {fault : WireFault} {x : Option α} {a : α} :
    orFail fault x = .ok a ↔ x = some a := by
  cases x with
  | none => exact ⟨nofun, nofun⟩
  | some b => exact ⟨fun h => congrArg some (Except.ok.inj h), fun h => congrArg _ (Option.some.inj h)⟩

theorem body_of_resolutionFields {body : JSString} {fields : List JSString} {resolution : Resolution}
    (h : resolutionFields body fields = .ok resolution) : resolution.data.body = body := by
  unfold resolutionFields at h
  split at h
  case h_2 => cases h
  case h_1 =>
    simp only [bind, Except.bind, throw, throwThe, MonadExceptOf.throw, pure, Except.pure] at h
    repeat' split at h
    all_goals cases h
    rfl

variable {first : RemoteResolution} {others : List RemoteResolution}

theorem parseResolveMessage_text (h : ∀ resolution ∈ first :: others, '\n' ∉ resolution.body) :
    parseResolveMessage (resolveToRemote ((first :: others).map RemoteResolution.resolution)) =
      .ok ((first :: others).map RemoteResolution.resolution) := by
  unfold parseResolveMessage resolveToRemote
  rw [List.splitOn_intercalate]
  case hx =>
    intro line hline
    rw [List.map_map] at hline
    obtain ⟨resolution, hmem, rfl⟩ := List.mem_map.mp hline
    exact newline_notMem_text (h resolution hmem)
  case hls => exact List.cons_ne_nil _ _
  rw [List.map_map]
  exact mapM_map_eq_ok fun resolution _ => parseResolution_text resolution

theorem resolveFromRemote_text (h : ∀ resolution ∈ first :: others, '\n' ∉ resolution.body) :
    resolveFromRemote (WireMessage.resolve first others).command.text =
      .ok (WireMessage.resolve first others).command := by
  unfold resolveFromRemote
  apply bind_eq_ok.mpr
  refine ⟨_, parseResolveMessage_text h, bind_eq_ok.mpr ⟨(), ?_, rfl⟩⟩
  apply forM_eq_ok.mpr
  intro resolution hmem
  obtain ⟨remote, -, rfl⟩ := List.mem_map.mp hmem
  exact insistRemoteType_makeRemoteSlot remote.rpid.property

theorem body_of_parseResolveMessage {message : JSString} {resolutions : List Resolution}
    (h : parseResolveMessage message = .ok resolutions) :
    ∀ resolution ∈ resolutions, '\n' ∉ resolution.data.body := by
  intro resolution hmem hnewline
  obtain ⟨submsg, hsubmsg, hparse⟩ := (mapM_ok_spec h).1 resolution hmem
  obtain ⟨⟨head, body⟩, hcut, hfields⟩ := bind_eq_ok.mp hparse
  rw [body_of_resolutionFields hfields] at hnewline
  exact notMem_of_mem_splitOn hsubmsg (mem_of_cutAt (orFail_eq_ok.mp hcut) hnewline)

end Resolve

section GC

theorem ofName_name (type : GCType) : GCType.ofName type.name = some type := by
  cases type <;> decide

theorem splitOn_gcLine (type : GCType) (slot : RemoteSlot) :
    (gcLine type (makeRemoteSlot slot)).splitOn ':' =
      ["gc".toList, type.name, makeRemoteSlot slot] := by
  have hline : gcLine type (makeRemoteSlot slot) =
      [':'].intercalate ["gc".toList, type.name, makeRemoteSlot slot] := by
    rw [intercalate_cons, List.flatMap_cons, List.flatMap_cons, List.flatMap_nil, List.append_nil]
    unfold gcLine
    rw [List.append_assoc]
  rw [hline]
  apply List.splitOn_intercalate
  case hx =>
    simp only [List.forall_mem_cons]
    refine ⟨by decide, ?_, notMem_makeRemoteSlot (by decide), nofun⟩
    cases type <;> decide
  case hls => exact List.cons_ne_nil _ _

theorem newline_notMem_gcLine (type : GCType) (slot : RemoteSlot) :
    '\n' ∉ gcLine type (makeRemoteSlot slot) := by
  have hslot : '\n' ∉ makeRemoteSlot slot := notMem_makeRemoteSlot (by decide)
  have hname : '\n' ∉ "gc".toList ++ ':' :: type.name := by
    cases type <;> decide
  unfold gcLine
  intro h
  rcases List.mem_append.mp h with h | h
  · exact hname h
  · exact hslot ((List.mem_cons.mp h).resolve_left (by decide))

theorem addGCAction_gcLine (gc : GCActions) (type : GCType) (slot : RemoteObject) :
    addGCAction gc (gcLine type (makeRemoteSlot slot)) =
      .ok (gc.append type [makeRemoteSlot slot]) := by
  unfold addGCAction
  rw [splitOn_gcLine]
  have hname : ¬ "gc".toList ≠ "gc".toList := not_not_intro rfl
  dsimp only
  rw [if_neg hname, ofName_name]
  dsimp only [pure_bind, bind, Except.bind, pure, Except.pure]
  rw [insistRemoteType_makeRemoteSlot slot.property]

theorem append_append (gc : GCActions) (type : GCType) (rrefs rrefs' : List JSString) :
    (gc.append type rrefs).append type rrefs' = gc.append type (rrefs ++ rrefs') := by
  cases type <;> simp [GCActions.append]

theorem append_nil (gc : GCActions) (type : GCType) : gc.append type [] = gc := by
  cases type <;> simp [GCActions.append]

theorem foldlM_gcLines (gc : GCActions) (type : GCType) (slots : List RemoteObject) :
    ((objectTexts slots).map (gcLine type)).foldlM addGCAction gc =
      .ok (gc.append type (objectTexts slots)) := by
  induction slots generalizing gc with
  | nil => exact congrArg Except.ok (append_nil gc type).symm
  | cons slot slots ih =>
    have hfirst := addGCAction_gcLine gc type slot
    have hrest := ih (gc.append type [makeRemoteSlot slot])
    rw [append_append] at hrest
    exact bind_eq_ok.mpr ⟨_, hfirst, hrest⟩

theorem exists_of_mem_gcLines {actions : GCActions} {line : JSString}
    (h : line ∈ gcLines actions) : ∃ type rref, line = gcLine type rref ∧
      rref ∈ actions.dropExports ++ actions.retireExports ++ actions.retireImports := by
  rcases List.mem_append.mp h with h | h
  · rcases List.mem_append.mp h with h | h
    · obtain ⟨rref, hmem, rfl⟩ := List.mem_map.mp h
      exact ⟨_, rref, rfl, List.mem_append_left _ (List.mem_append_left _ hmem)⟩
    · obtain ⟨rref, hmem, rfl⟩ := List.mem_map.mp h
      exact ⟨_, rref, rfl, List.mem_append_left _ (List.mem_append_right _ hmem)⟩
  · obtain ⟨rref, hmem, rfl⟩ := List.mem_map.mp h
    exact ⟨_, rref, rfl, List.mem_append_right _ hmem⟩

variable {dropExports retireExports retireImports : List RemoteObject}

/-- The actions of a batch, as texts. -/
abbrev batch (dropExports retireExports retireImports : List RemoteObject) : GCActions :=
  ⟨objectTexts dropExports, objectTexts retireExports, objectTexts retireImports⟩

theorem gcLines_ne_nil (h : dropExports ++ retireExports ++ retireImports ≠ []) :
    gcLines (batch dropExports retireExports retireImports) ≠ [] := by
  intro hnil
  apply h
  apply List.eq_nil_of_length_eq_zero
  have hlength := congrArg List.length hnil
  simpa [gcLines, objectTexts] using hlength

theorem parseGCMessage_text (h : dropExports ++ retireExports ++ retireImports ≠ []) :
    parseGCMessage (gcToRemote (batch dropExports retireExports retireImports)) =
      .ok (batch dropExports retireExports retireImports) := by
  have hline : ∀ line ∈ gcLines (batch dropExports retireExports retireImports), '\n' ∉ line := by
    intro line hline
    obtain ⟨type, rref, rfl, hmem⟩ := exists_of_mem_gcLines hline
    have hslot : ∃ slot, makeRemoteSlot slot = rref := by
      simp only [objectTexts, List.mem_append, List.mem_map] at hmem
      rcases hmem with (⟨slot, -, heq⟩ | ⟨slot, -, heq⟩) | ⟨slot, -, heq⟩ <;> exact ⟨_, heq⟩
    obtain ⟨slot, rfl⟩ := hslot
    exact newline_notMem_gcLine type slot
  unfold parseGCMessage gcToRemote
  rw [List.splitOn_intercalate _ hline (gcLines_ne_nil h)]
  unfold gcLines
  rw [List.foldlM_append, List.foldlM_append, foldlM_gcLines]
  show (((objectTexts retireExports).map _).foldlM addGCAction _ >>= _) = _
  rw [foldlM_gcLines]
  exact foldlM_gcLines _ _ _

end GC

section Messages

theorem takeSign_digit {c : Char} (h : c.isDigit = true) (cs : JSString) :
    takeSign (c :: cs) = (false, c :: cs) := by
  unfold takeSign
  split
  case h_1 heq => exact absurd h (by rw [(List.cons.inj heq).1]; decide)
  case h_2 heq => exact absurd h (by rw [(List.cons.inj heq).1]; decide)
  case h_3 => rfl

theorem parseInt_decimal (n : Nat) : parseInt (decimal n) = some (n : Int) := by
  have hdigits : ∀ c ∈ decimal n, c.isDigit = true := fun c => decimal_isDigit
  have hvalue : Nat.ofDigitChars 10 (decimal n) 0 = n := Nat.ofDigitChars_ten_toDigits
  have hne : decimal n ≠ [] := Nat.toDigits_ne_nil
  obtain ⟨c, cs, heq⟩ := List.exists_cons_of_ne_nil hne
  rw [heq] at hdigits hvalue hne ⊢
  have hc := hdigits c List.mem_cons_self
  have hspace : ¬ isStrWhiteSpace c = true := by
    rw [SwingSet.isStrWhiteSpace_digit hc]
    exact Bool.false_ne_true
  unfold parseInt
  rw [List.dropWhile_cons_of_neg hspace, takeSign_digit hc]
  dsimp only
  rw [List.takeWhile_eq_self_iff.mpr hdigits, if_neg hne, hvalue]
  rfl

theorem messageFromRemote_eq (sendExplicitSeqNums : Bool) (n lastReceivedSeqNum : Nat)
    (msg : JSString) :
    messageFromRemote n (transmit sendExplicitSeqNums (n + 1) lastReceivedSeqNum msg) =
      (fun command => (some (lastReceivedSeqNum : Int), command)) <$> commandFromRemote msg := by
  have hdecimal : ∀ m, ':' ∉ decimal m := fun m h => absurd (decimal_isDigit h) (by decide)
  let seqNum := if sendExplicitSeqNums then decimal (n + 1) else []
  have hseqNum : ':' ∉ seqNum := by
    dsimp only [seqNum]
    split
    · exact hdecimal (n + 1)
    · exact List.not_mem_nil
  have hexpected : ¬ (seqNum ≠ [] ∧ seqNum ≠ decimal (n + 1)) := by
    dsimp only [seqNum]
    split
    · exact fun h => h.2 rfl
    · exact fun h => h.1 rfl
  unfold messageFromRemote transmit
  dsimp only
  rw [cutAt_append hseqNum]
  dsimp only [orFail, bind, Except.bind]
  rw [if_neg hexpected]
  dsimp only [pure, Except.pure]
  rw [cutAt_append (hdecimal lastReceivedSeqNum)]
  dsimp only
  rw [parseInt_decimal]
  cases commandFromRemote msg <;> rfl

theorem takeWhile_name {name rest : JSString} (h : ':' ∉ name) :
    (name ++ ':' :: rest).takeWhile (fun c => decide (c ≠ ':')) = name := by
  have hall : ∀ c ∈ name, decide (c ≠ ':') = true := by
    intro c hc
    apply decide_eq_true
    rintro rfl
    exact h hc
  rw [List.takeWhile_append_of_pos hall, List.takeWhile_cons_of_neg (by decide), List.append_nil]

theorem commandFromRemote_deliver (rest : JSString) :
    commandFromRemote ("deliver".toList ++ ':' :: rest) =
      sendFromRemote ("deliver".toList ++ ':' :: rest) := by
  unfold commandFromRemote
  rw [takeWhile_name (by decide)]
  exact if_pos rfl

theorem commandFromRemote_resolve (rest : JSString) :
    commandFromRemote ("resolve".toList ++ ':' :: rest) =
      resolveFromRemote ("resolve".toList ++ ':' :: rest) := by
  unfold commandFromRemote
  rw [takeWhile_name (by decide)]
  exact (if_neg (by decide)).trans (if_pos rfl)

theorem commandFromRemote_gc (rest : JSString) :
    commandFromRemote ("gc".toList ++ ':' :: rest) =
      Command.gc <$> parseGCMessage ("gc".toList ++ ':' :: rest) := by
  unfold commandFromRemote
  rw [takeWhile_name (by decide)]
  exact (if_neg (by decide)).trans ((if_neg (by decide)).trans (if_pos rfl))

theorem exists_rest_of_lines {name : JSString} {lines : List JSString} (hne : lines ≠ [])
    (h : ∀ line ∈ lines, ∃ rest, line = name ++ ':' :: rest) :
    ∃ rest, ['\n'].intercalate lines = name ++ ':' :: rest := by
  obtain ⟨first, others, rfl⟩ := List.exists_cons_of_ne_nil hne
  obtain ⟨rest, rfl⟩ := h first List.mem_cons_self
  rw [intercalate_cons, List.append_assoc, List.cons_append]
  exact ⟨_, rfl⟩

theorem commandFromRemote_resolveToRemote {resolutions : List Resolution} (hne : resolutions ≠ []) :
    commandFromRemote (resolveToRemote resolutions) =
      resolveFromRemote (resolveToRemote resolutions) := by
  have hlines : ∀ line ∈ resolutions.map resolutionText, ∃ rest,
      line = "resolve".toList ++ ':' :: rest := by
    intro line hline
    obtain ⟨resolution, -, rfl⟩ := List.mem_map.mp hline
    unfold resolutionText
    simp only [List.append_assoc, List.cons_append]
    exact ⟨_, rfl⟩
  obtain ⟨rest, hrest⟩ := exists_rest_of_lines (mt List.map_eq_nil_iff.mp hne) hlines
  unfold resolveToRemote
  rw [hrest]
  exact commandFromRemote_resolve rest

theorem commandFromRemote_gcToRemote {actions : GCActions} (hne : gcLines actions ≠ []) :
    commandFromRemote (gcToRemote actions) = Command.gc <$> parseGCMessage (gcToRemote actions) := by
  have hlines : ∀ line ∈ gcLines actions, ∃ rest, line = "gc".toList ++ ':' :: rest := by
    intro line hline
    obtain ⟨type, rref, rfl, -⟩ := exists_of_mem_gcLines hline
    unfold gcLine
    rw [List.append_assoc, List.cons_append]
    exact ⟨_, rfl⟩
  obtain ⟨rest, hrest⟩ := exists_rest_of_lines hne hlines
  unfold gcToRemote
  rw [hrest]
  exact commandFromRemote_gc rest

theorem commandFromRemote_text {m : WireMessage} (h : m.OneLineBodies) :
    commandFromRemote m.command.text = .ok m.command := by
  cases m with
  | deliver target result slots body =>
    have hread := sendFromRemote_text target result slots body
    exact (commandFromRemote_deliver _).trans hread
  | resolve first others =>
    have hread := resolveFromRemote_text h
    exact (commandFromRemote_resolveToRemote (List.cons_ne_nil _ _)).trans hread
  | gc dropExports retireExports retireImports nonempty =>
    have hread := parseGCMessage_text nonempty
    have hne := gcLines_ne_nil nonempty
    exact (commandFromRemote_gcToRemote hne).trans (congrArg (Command.gc <$> ·) hread)

theorem oneLineBodies_of_commandFromRemote {m : WireMessage}
    (h : commandFromRemote m.command.text = .ok m.command) : m.OneLineBodies := by
  cases m with
  | deliver target result slots body => trivial
  | gc dropExports retireExports retireImports nonempty => trivial
  | resolve first others =>
    have hread := (commandFromRemote_resolveToRemote (List.cons_ne_nil _ _)).symm.trans h
    obtain ⟨resolutions, hparse, hrest⟩ := bind_eq_ok.mp hread
    obtain ⟨_, -, heq⟩ := bind_eq_ok.mp hrest
    cases heq
    intro resolution hmem
    exact body_of_parseResolveMessage hparse _ (List.mem_map_of_mem hmem)

end Messages

end AgoricSdk.Comms
