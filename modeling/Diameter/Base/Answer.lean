import Diameter.Base.Echo
import Diameter.Wire.ReadWrite

/-!
# Base.Answer

The answer `Message.Answer` starts for a request that was read: its header, the octets of the
Proxy-Info AVPs it echoes, and which AVPs later outgoing validation takes for these echoes.

* `echo_serialize` — an echo is written as its original with the reserved flags cleared.
* `exempt_iff` — the sending rules pass over an echo as long as it has the octets it was made with.
-/

namespace Diameter

open Lib Datatype Dict

variable {b : Bytes}
variable {v : Value} {n : Nat} {a : AVP} {m : Message} {out : Bytes}

/-! ## Octets of an echo -/

theorem decode_time_of_length (h : b.length = 4) : ∃ unix, decode .time b = .ok (.time unix) := by
  have hb : ¬ b.length ≠ 4 := not_not.2 h
  simp only [decode, if_neg hb]
  split
  · exact ⟨_, rfl⟩
  · exact ⟨_, rfl⟩

theorem Datatype.Value.clone_eq_of_decode {copy : Value} (hv : v.typeID ≠ .address)
    (h : decode v.typeID v.serialize = .ok copy) : v.clone = copy := by
  unfold Value.clone
  split
  · exact (hv rfl).elim
  · rw [h]

/-- A copy has the octets of its original, if that has as many as it declares. -/
theorem Datatype.Value.clone_octets (h : v.serialize.length = v.len) :
    v.clone.serialize = v.serialize ∧ v.clone.len = v.len ∧ v.clone.padding = v.padding := by
  cases v
  case address a => exact ⟨rfl, rfl, rfl⟩
  case ipv4 ip =>
    have hlen : ((to4 ip).getD ip).length = 4 := h
    have hclone : (Value.ipv4 ip).clone = .ipv4 ((to4 ip).getD ip) := by
      simp only [Value.clone, Value.typeID, Value.serialize, decode, hlen, if_true]
    have hsame : (to4 ((to4 ip).getD ip)).getD ((to4 ip).getD ip) = (to4 ip).getD ip := by
      generalize (to4 ip).getD ip = b at hlen
      rw [to4, if_pos hlen, Option.getD_some]
    rw [hclone]
    exact ⟨hsame, rfl, rfl⟩
  case ipv6 ip =>
    have hlen : ((to16 ip).getD ip).length = 16 := h
    have hclone : (Value.ipv6 ip).clone = .ipv6 ((to16 ip).getD ip) := by
      simp only [Value.clone, Value.typeID, Value.serialize, decode, hlen, if_true]
    have hsame : (to16 ((to16 ip).getD ip)).getD ((to16 ip).getD ip) = (to16 ip).getD ip := by
      generalize (to16 ip).getD ip = b at hlen
      have hnot : b.length ≠ 4 := by omega
      rw [to16, if_neg hnot, if_pos hlen, Option.getD_some]
    rw [hclone]
    exact ⟨hsame, rfl, rfl⟩
  case time unix =>
    have hlen : (Value.time unix).serialize.length = 4 := h
    obtain ⟨copy, hcopy⟩ := decode_time_of_length hlen
    rw [Value.clone_eq_of_decode (v := .time unix) TypeID.noConfusion hcopy]
    exact ⟨serialize_of_decode hcopy hlen.symm, rfl, rfl⟩
  all_goals
    rw [Value.clone_of_expressible rfl]
    exact ⟨rfl, rfl, rfl⟩

theorem checkValue_of_typeID (h : v.typeID ≠ .address) : checkValue v = .ok () := by
  cases v
  case address a => exact (h rfl).elim
  all_goals rfl

theorem checkValue_clone (h : checkValue v = .ok ()) : checkValue v.clone = .ok () := by
  by_cases htype : v.typeID = .address
  · cases v
    case address a => exact h
    all_goals cases htype
  · exact checkValue_of_typeID (v.clone_typeID ▸ htype)

/-- The bits of a header that an echo keeps. -/
def headerMask (flags : UInt8) : Bytes :=
  List.replicate 4 0xff ++ 0xe0 :: List.replicate (headerLen flags - 5) 0xff

mutual

/-- The bits of the octets of an AVP that its echo keeps: all but the reserved flags, of its own and
of its members. -/
def AVP.echoMask : AVP → Bytes
  | ⟨_, flags, _, _, .value v⟩ => headerMask flags ++ List.replicate (v.len + v.padding) 0xff
  | ⟨_, flags, _, _, .addressPtr (some a)⟩ =>
    headerMask flags ++ List.replicate (a.len + pad a.len) 0xff
  | ⟨_, flags, _, _, .nilGroup⟩ => headerMask flags
  | ⟨_, flags, _, _, .group ms⟩ => headerMask flags ++ membersEchoMask ms
  | ⟨_, _, _, _, .nil⟩ | ⟨_, _, _, _, .addressPtr none⟩ => []

def membersEchoMask : List (Option AVP) → Bytes
  | [] => []
  | none :: ms => membersEchoMask ms
  | some a :: ms => a.echoMask ++ membersEchoMask ms

end

/-- The octets of `b` with the bits of `mask`. -/
def masked (b mask : Bytes) : Bytes := List.zipWith (· &&& ·) b mask

theorem masked_append {b b' mask mask' : Bytes} (h : b.length = mask.length) :
    masked (b ++ b') (mask ++ mask') = masked b mask ++ masked b' mask' :=
  List.zipWith_append h

theorem masked_ff (h : b.length = n) : masked b (List.replicate n 0xff) = b := by
  have hall : ∀ x : UInt8, x &&& 0xff = x := by decide +kernel
  induction b generalizing n with
  | nil =>
    subst h
    rfl
  | cons x b ih =>
    subst h
    rw [List.length_cons, List.replicate_succ]
    show (x &&& 0xff) :: masked b (List.replicate b.length 0xff) = x :: b
    rw [hall, ih rfl]

@[simp] theorem length_headerMask (flags : UInt8) : (headerMask flags).length = headerLen flags := by
  have hge := headerLen_ge flags
  simp [headerMask]
  omega

theorem hasVendor_echoFlags : ∀ flags : UInt8, hasVendor (echoFlags flags) = hasVendor flags := by
  decide +kernel

theorem headerLen_echoFlags (flags : UInt8) : headerLen (echoFlags flags) = headerLen flags := by
  rw [headerLen, headerLen, hasVendor_echoFlags]

theorem headerBytes_echoFlags (code : UInt32) (flags : UInt8) (vendorID : UInt32) (n : Nat) :
    headerBytes code (echoFlags flags) vendorID n =
      masked (headerBytes code flags vendorID n) (headerMask flags) := by
  have hflags : ∀ f : UInt8, echoFlags f = f &&& 0xe0 := by decide +kernel
  have htail : (bigEndian 3 (headerLen flags + n) ++
      if hasVendor flags then bigEndian 4 vendorID.toNat else []).length = headerLen flags - 5 := by
    unfold headerLen
    split <;> simp
  unfold headerBytes headerMask
  rw [headerLen_echoFlags, hasVendor_echoFlags, masked_append (by simp), masked_ff (by simp),
    hflags]
  show _ = _ ++ (_ &&& _) :: masked _ _
  rw [masked_ff htail]

/-- An echo of a sound AVP is sound, as long as the AVP, and has its octets but for the reserved
flags. -/
theorem echo_encode_aux :
    (∀ a : AVP, a.sound = true → a.echo.sound = true ∧ a.echo.len = a.len ∧
      a.echoMask.length = a.len ∧ a.echo.encode = masked a.encode a.echoMask) ∧
    ∀ ms, membersSound ms = true → membersSound (echoMembers ms) = true ∧
      membersLen (echoMembers ms) = membersLen ms ∧
      (membersEchoMask ms).length = membersLen ms ∧
      encodeMembers (echoMembers ms) = masked (encodeMembers ms) (membersEchoMask ms) := by
  have hhdr : ∀ code flags vendorID n,
      (headerBytes code flags vendorID n).length = (headerMask flags).length := by
    simp
  apply AVP.sound_induction
  case address =>
    intro code flags length vendorID a hcheck
    refine ⟨sound_addressPtr_iff.2 hcheck, ?_, ?_, ?_⟩
    · simp [AVP.echo, AVP.len, headerLen_echoFlags]
    · simp [AVP.echoMask, AVP.len]
      omega
    simp only [AVP.echo, AVP.encode, AVP.echoMask]
    rw [masked_append (hhdr _ _ _ _), ← headerBytes_echoFlags,
      masked_ff (by simp [a.length_serialize])]
  case nilGroup =>
    intro code flags length vendorID
    refine ⟨rfl, ?_, ?_, ?_⟩
    · simp [AVP.echo, AVP.len, headerLen_echoFlags]
    · simp [AVP.echoMask, AVP.len]
    · simp only [AVP.echo, AVP.encode, AVP.echoMask]
      exact headerBytes_echoFlags _ _ _ _
  case value =>
    intro code flags length vendorID v hlen hcheck
    obtain ⟨hoctets, hlen', hpad⟩ := Value.clone_octets hlen
    refine ⟨sound_value_iff.2 ⟨?_, checkValue_clone hcheck⟩, ?_, ?_, ?_⟩
    · rw [hoctets, hlen', hlen]
    · simp [AVP.echo, AVP.len, headerLen_echoFlags, hlen', hpad]
    · simp [AVP.echoMask, AVP.len]
      omega
    simp only [AVP.echo, AVP.encode, AVP.echoMask]
    rw [masked_append (hhdr _ _ _ _), ← headerBytes_echoFlags, masked_ff (by simp [hlen]), hoctets,
      hlen', hpad]
  case group =>
    rintro code flags length vendorID ms - ⟨hsound, hlen, hmask, hoctets⟩
    refine ⟨by simpa [AVP.echo, AVP.sound] using hsound, ?_, ?_, ?_⟩
    · simp [AVP.echo, AVP.len, headerLen_echoFlags, hlen]
    · simp [AVP.echoMask, AVP.len, hmask]
    · simp only [AVP.echo, AVP.encode, AVP.echoMask]
      rw [masked_append (hhdr _ _ _ _), ← headerBytes_echoFlags, hlen, hoctets]
  case nil => exact ⟨rfl, rfl, rfl, rfl⟩
  case some =>
    rintro a ms hs - ⟨hsound, hlen, hmask, hoctets⟩ ⟨hsound', hlen', hmask', hoctets'⟩
    refine ⟨?_, ?_, ?_, ?_⟩
    · simp [echoMembers, membersSound, hsound, hsound']
    · simp [echoMembers, membersLen, hlen, hlen']
    · simp [membersEchoMask, membersLen, hmask, hmask']
    · simp only [echoMembers, encodeMembers, membersEchoMask]
      rw [masked_append ((length_encode hs).trans hmask.symm), hoctets, hoctets']

theorem serialize_of_sound (h : a.sound = true) : a.serialize = .ok a.encode := by
  have hnil : a.hasNil = false := hasNil_of_sound_aux.1 a h
  have hlen : a.len ≤ (List.replicate a.len (0 : UInt8)).length := by simp
  unfold AVP.serialize
  rw [hnil, if_neg Bool.false_ne_true, serializeTo_eq h hlen]
  simp

theorem echo_serialize (h : a.sound = true) :
    a.echo.serialize = .ok (masked a.encode a.echoMask) := by
  obtain ⟨hsound, -, -, hoctets⟩ := echo_encode_aux.1 a h
  rw [serialize_of_sound hsound, hoctets]

/-! ## AVPs that were read -/

theorem RunsLoop.sound {what : String} {tolerant : Bool} {dec : Bytes → AVP × Option AVPError}
    (hdec : ∀ b a err, dec b = (a, err) → (∀ e, err ≠ some (.length e)) → a.ReadFrom b)
    {r : Loop} (h : RunsLoop what tolerant dec b n r) : ∀ a ∈ r.avps, a.sound = true := by
  induction h with
  | nil | length _ _ | broken _ _ _ | overrun _ _ _ _ _ =>
    exact fun a ha => (List.not_mem_nil ha).elim
  | next _ hd hlen _ _ _ _ ih =>
    intro a ha
    rcases List.mem_cons.1 ha with rfl | ha
    · exact (hdec _ _ _ hd hlen).sound
    · exact ih a ha

theorem decodeAVPs_sound (h : Header) (b : Bytes) (s : Snapshot) :
    ∀ a, some a ∈ (Message.decodeAVPs { header := h } b s).1.avps → a.sound = true := by
  have hrun := decodeLoop_spec "AVP" false (fun data => decodeAVP data h.applicationID s 0 false)
    b.length b 0 (Nat.le_refl _)
  have hsound := hrun.sound (fun b a err => decodeAVPAt_readFrom s _ _ _ b a err)
  intro a ha
  unfold Message.decodeAVPs Message.avps at ha
  dsimp only at ha
  refine hsound a ?_
  split at ha <;> simpa [Function.comp_def] using ha

theorem readMessage_sound {stream : Bytes} {s : Snapshot} {err : Option ReadError}
    (h : readMessage stream s = (some m, err)) : ∀ a, some a ∈ m.avps → a.sound = true := by
  have hbody : ∀ hdr rest, ∀ a, some a ∈ (Message.readBody { header := hdr } rest s).1.avps →
      a.sound = true := by
    intro hdr rest a ha
    unfold Message.readBody at ha
    dsimp only at ha
    split at ha
    · exact (List.not_mem_nil ha).elim
    split at ha
    · split at ha
      · exact (List.not_mem_nil ha).elim
      · exact decodeAVPs_sound _ _ s a ha
    · exact decodeAVPs_sound _ _ s a ha
  unfold readMessage at h
  dsimp only at h
  split at h
  · cases h
  split at h
  · cases h
    exact fun a ha => (List.not_mem_nil ha).elim
  have hread := hbody (headerFields (stream.take headerLength)) (stream.drop headerLength)
  split at h
  next heq =>
    cases h
    rwa [heq] at hread
  next heq =>
    cases h
    rwa [heq] at hread

/-! ## Echoes under outgoing validation -/

theorem take_overwrite {b src : Bytes} {off : Nat} (hn : n ≤ off) (hoff : off ≤ b.length) :
    (overwrite b off src).take n = b.take n := by
  have hlen : n ≤ (b.take off).length := by simp; omega
  rw [overwrite, List.append_assoc, List.take_append_of_le_length hlen, List.take_take,
    Nat.min_eq_left hn]

theorem take_headerBytes (code : UInt32) (flags : UInt8) (vendorID : UInt32) (n : Nat)
    (rest : Bytes) :
    (headerBytes code flags vendorID n ++ rest).take 4 = bigEndian 4 code.toNat := by
  unfold headerBytes
  rw [List.append_assoc]
  exact take_append_of_length (length_bigEndian _ _)

theorem take_writeAt_header {b : Bytes} {code : UInt32} {flags : UInt8} {vendorID : UInt32}
    (h : writeAt b 0 (headerBytes code flags vendorID n) = .ok out) :
    out.take 4 = bigEndian 4 code.toNat ∧ headerLen flags ≤ out.length := by
  unfold writeAt at h
  split at h
  next hfit =>
    rw [length_headerBytes] at hfit
    cases h
    rw [overwrite, List.take_zero, List.nil_append]
    exact ⟨take_headerBytes _ _ _ _ _, by simp⟩
  · cases h

theorem take_writePayload {b payload : Bytes} {hl padding : Nat} (hhl : 4 ≤ hl)
    (h : writePayload b hl payload padding = .ok out) : out.take 4 = b.take 4 := by
  unfold writePayload at h
  split at h
  · cases h
    exact take_overwrite hhl (by omega)
  · cases h

/-- Whatever is written for an AVP begins with its code. -/
theorem take_serializeTo {b : Bytes} (h : a.serializeTo b = .ok out) :
    out.take 4 = bigEndian 4 a.code.toNat := by
  obtain ⟨code, flags, length, vendorID, data⟩ := a
  have hhl : 4 ≤ headerLen flags := (by decide : 4 ≤ 8).trans (headerLen_ge flags)
  cases data with
  | nil => simp [AVP.serializeTo] at h
  | addressPtr p =>
    cases p with
    | none => simp [AVP.serializeTo] at h
    | some x =>
      simp only [AVP.serializeTo, bind, Except.bind] at h
      split at h
      · cases h
      split at h
      · cases h
      next hw => exact (take_writePayload hhl h).trans (take_writeAt_header hw).1
  | value v =>
    simp only [AVP.serializeTo, bind, Except.bind] at h
    split at h
    · cases h
    split at h
    · cases h
    next hw => exact (take_writePayload hhl h).trans (take_writeAt_header hw).1
  | nilGroup =>
    simp only [AVP.serializeTo] at h
    exact (take_writeAt_header h).1
  | group ms =>
    simp only [AVP.serializeTo, bind, Except.bind, pure, Except.pure] at h
    split at h
    · cases h
    split at h
    · cases h
    rename_i b' hw
    split at h
    · cases h
    cases h
    obtain ⟨htake, hfit⟩ := take_writeAt_header hw
    have hle : 4 ≤ (b'.take (headerLen flags)).length := by simp; omega
    rw [List.take_append_of_le_length hle, List.take_take, Nat.min_eq_left hhl, htake]

theorem code_of_serialize {a' : AVP} (h : a.serialize = .ok b) (h' : a'.serialize = .ok b) :
    a.code = a'.code := by
  have hcode : ∀ {x : AVP}, x.serialize = .ok b → b.take 4 = bigEndian 4 x.code.toNat := by
    intro x hx
    unfold AVP.serialize at hx
    split at hx
    · cases hx
    · exact take_serializeTo hx
  have hsame := (hcode h).symm.trans (hcode h')
  rw [← uint32_ofBigEndian_bigEndian a.code, hsame, uint32_ofBigEndian_bigEndian]

/-- The AVP `a` in this place is an echo that is as it was made. -/
def Item.Unchanged (i : Item) (a : AVP) : Prop :=
  ∃ b, i.echo = some b ∧ a.serialize = .ok b ∧ a.vendorID = 0

/-- The echoes in `later` were made by an answer to `m`. -/
def Message.EchoesIn (m later : Message) : Prop :=
  ∀ i ∈ later.items, ∀ b, i.echo = some b → ∃ p ∈ m.proxyInfos, p.echo.serialize = .ok b

theorem isEchoedProxy_iff {later : Message} (h : m.EchoesIn later) {i : Item}
    (hi : i ∈ later.items) (ha : i.avp = some a) :
    i.isEchoedProxy = true ↔ i.Unchanged a := by
  obtain ⟨avp, echo⟩ := i
  subst ha
  unfold Item.isEchoedProxy Item.Unchanged
  cases echo with
  | none => simp
  | some b =>
    obtain ⟨p, hp, hoctets⟩ := h _ hi b rfl
    have hproxy : p.code = proxyInfoCode := by
      have := (List.mem_filter.1 hp).2
      simp only [AVP.isProxyInfo, Bool.and_eq_true, beq_iff_eq] at this
      exact this.1
    have hcode : a.serialize = .ok b → a.code = proxyInfoCode := by
      intro hb
      rw [code_of_serialize hb hoctets, reshapes_echo.code, hproxy]
    cases hser : a.serialize with
    | error e => simp [hser]
    | ok current =>
      simp only [hser, Bool.and_eq_true, beq_iff_eq, Option.some.injEq, Except.ok.injEq,
        exists_eq_left']
      constructor
      · rintro ⟨⟨-, hv⟩, hc⟩
        exact ⟨hc, hv⟩
      · rintro ⟨rfl, hv⟩
        exact ⟨⟨hcode hser, hv⟩, rfl⟩

/-- The sending rules pass a message just when they pass each of its AVPs that is not an unchanged
echo. -/
theorem exempt_iff {later : Message} (h : m.EchoesIn later)
    (hanswer : later.header.isRequest = false) (s : Snapshot) (app : UInt32) (rules : List Rule) :
    walkOutgoingFlags s app rules (later.echoItems true) = .ok () ↔
      ∀ i ∈ later.items, ∃ a, i.avp = some a ∧
        (i.Unchanged a ∨ a.walkOutgoingFlags s app rules = .ok ()) := by
  have hitems : later.echoItems true = later.items := by simp [Message.echoItems, hanswer]
  have hone : ∀ i ∈ later.items, i.walkOutgoingFlags s app rules = .ok () ↔
      ∃ a, i.avp = some a ∧ (i.Unchanged a ∨ a.walkOutgoingFlags s app rules = .ok ()) := by
    intro i hi
    unfold Item.walkOutgoingFlags
    cases ha : i.avp with
    | none => simp
    | some a =>
      have hecho := isEchoedProxy_iff h hi ha
      simp only [Option.some.injEq, exists_eq_left']
      split
      next he => exact ⟨fun _ => .inl (hecho.1 he), fun _ => rfl⟩
      next he => exact ⟨.inr, fun hor => hor.resolve_left fun hu => he (hecho.2 hu)⟩
  rw [hitems]
  have hall : ∀ l : List Item, (∀ i ∈ l, i ∈ later.items) →
      (walkOutgoingFlags s app rules l = .ok () ↔ ∀ i ∈ l, ∃ a, i.avp = some a ∧
        (i.Unchanged a ∨ a.walkOutgoingFlags s app rules = .ok ())) := by
    intro l hl
    induction l with
    | nil => simp [walkOutgoingFlags]
    | cons i l ih =>
      have hhead := hone i (hl i (List.mem_cons_self ..))
      have hrest := ih fun x hx => hl x (List.mem_cons_of_mem _ hx)
      rw [List.forall_mem_cons, ← hhead, ← hrest, walkOutgoingFlags]
      cases i.walkOutgoingFlags s app rules with
      | error e => simp [bind, Except.bind]
      | ok u => simp [bind, Except.bind]
  exact hall later.items fun _ => id

/-! ## Answers to requests that were read -/

theorem echoesIn_answer (drawn : Drawn) (m : Message) (resultCode : UInt32) :
    m.EchoesIn (m.answer drawn resultCode) := by
  intro i hi b hb
  rw [Message.answer_items, List.mem_append, List.mem_map] at hi
  rcases hi with hi | ⟨p, hp, rfl⟩
  · split at hi
    · rw [List.mem_singleton] at hi
      rw [hi] at hb
      cases hb
    · exact (List.not_mem_nil hi).elim
  · refine ⟨p, hp, ?_⟩
    cases hs : p.echo.serialize with
    | error e =>
      rw [echoItem, hs] at hb
      cases hb
    | ok b' =>
      rw [echoItem, hs] at hb
      cases hb
      rfl

theorem sound_of_mem_proxyInfos (h : ∀ a, some a ∈ m.avps → a.sound = true)
    {p : AVP} (hp : p ∈ m.proxyInfos) : p.sound = true := by
  obtain ⟨o, ho, hsome⟩ := List.mem_filterMap.1 (List.mem_filter.1 hp).1
  cases hsome
  exact h p ho

/-- An answer to a request that was read. Its echoes are written as their originals but for the
reserved flags; at the top level of an outgoing answer the sending rules pass over an AVP just when
it is one of the echoes, has no vendor, and is still written as it was. -/
theorem answer_echoes {stream : Bytes} {s : Snapshot} {m : Message} {err : Option ReadError}
    (h : readMessage stream s = (some m, err)) (drawn : Drawn) (resultCode : UInt32) :
    (m.answer drawn resultCode).header.commandCode = m.header.commandCode ∧
    (m.answer drawn resultCode).header.applicationID = m.header.applicationID ∧
    (m.answer drawn resultCode).header.hopByHopID = m.header.hopByHopID ∧
    (m.answer drawn resultCode).header.endToEndID = m.header.endToEndID ∧
    (m.answer drawn resultCode).header.commandFlags =
      m.header.commandFlags &&& proxiableFlag |||
        (if 3000 ≤ resultCode ∧ resultCode < 4000 then errorFlag else 0) ∧
    (m.answer drawn resultCode).items =
      (if resultCode ≠ 0 then [⟨some (Base.resultCodeAVP resultCode), none⟩] else []) ++
        m.proxyInfos.map echoItem ∧
    (∀ p ∈ m.proxyInfos, ∃ b, p.serialize = .ok b ∧
      p.echo.serialize = .ok (masked b p.echoMask) ∧
      (echoItem p).echo = some (masked b p.echoMask)) ∧
    m.EchoesIn (m.answer drawn resultCode) ∧
    ∀ later : Message, m.EchoesIn later → later.header.isRequest = false →
      (∀ i ∈ later.items, ∀ a, i.avp = some a → (i.isEchoedProxy = true ↔ i.Unchanged a)) ∧
      ∀ (s' : Snapshot) (app : UInt32) (rules : List Rule),
        walkOutgoingFlags s' app rules (later.echoItems true) = .ok () ↔
          ∀ i ∈ later.items, ∃ a, i.avp = some a ∧
            (i.Unchanged a ∨ a.walkOutgoingFlags s' app rules = .ok ()) := by
  have hheader := m.answer_header drawn resultCode
  refine ⟨hheader.commandCode, hheader.applicationID, hheader.hopByHopID, hheader.endToEndID, ?_,
    m.answer_items drawn resultCode, fun p hp => ?_, echoesIn_answer drawn m resultCode,
    fun later hlater hanswer => ⟨fun i hi a => isEchoedProxy_iff hlater hi,
      exempt_iff hlater hanswer⟩⟩
  · rw [hheader.commandFlags]
    simp only [Message.answerHeader, newMessage, protocolErrorCode, decide_eq_true_eq]
    split
    · rfl
    · rw [UInt8.or_zero]
  · have hsound := sound_of_mem_proxyInfos (readMessage_sound h) hp
    have hecho := echo_serialize hsound
    refine ⟨_, serialize_of_sound hsound, hecho, ?_⟩
    rw [echoItem, hecho]
    rfl

/-- A request with a Proxy-Info whose reserved flags are set. -/
def proxiedRequest : Bytes :=
  [1, 0, 0, 32, 0xc0, 0, 1, 0x10, 0, 0, 0, 0, 0, 0, 0, 1, 0, 0, 0, 2,
    0, 0, 0x01, 0x1c, 0x5f, 0, 0, 12, 1, 2, 3, 4]

theorem answer_echoes_proxied : ∃ m err,
    readMessage proxiedRequest {} = (some m, err) ∧ m.proxyInfos.length = 1 ∧
    (∀ p ∈ m.proxyInfos, ∃ b, p.serialize = .ok b ∧ p.echo.serialize = .ok (masked b p.echoMask)) ∧
    walkOutgoingFlags {} 0 [] ((m.answer ⟨0, 0⟩ 2001).echoItems true) = .ok () := by
  have hread : readMessage proxiedRequest {} = (some _, _) := rfl
  obtain ⟨-, -, -, -, -, -, hproxies, hechoes, hlater⟩ := answer_echoes hread ⟨0, 0⟩ 2001
  refine ⟨_, _, hread, rfl, fun p hp => ?_, ((hlater _ hechoes rfl).2 {} 0 []).2 ?_⟩
  · obtain ⟨b, hb, hecho, -⟩ := hproxies p hp
    exact ⟨b, hb, hecho⟩
  · exact List.forall_mem_cons.2 ⟨⟨_, rfl, .inr rfl⟩, List.forall_mem_cons.2
      ⟨⟨_, rfl, .inl ⟨_, rfl, rfl, rfl⟩⟩, List.forall_mem_nil _⟩⟩

/-- An echo that was given a vendor, with its V bit clear, is written as before and no longer passed
over. -/
theorem vendored_echo_checked : ∃ m err i a b e,
    readMessage proxiedRequest {} = (some m, err) ∧
    (m.answer ⟨0, 0⟩ 0).items = [i] ∧ i.avp = some a ∧ i.echo = some b ∧ a.serialize = .ok b ∧
    { a with vendorID := 5 }.serialize = .ok b ∧
    (Item.mk (some { a with vendorID := 5 }) (some b)).isEchoedProxy = false ∧
    (Item.mk (some { a with vendorID := 5 }) (some b)).walkOutgoingFlags {} 0 [] =
      .error e := by
  have hread : readMessage proxiedRequest {} = (some _, _) := rfl
  exact ⟨_, _, _, _, _, _, hread, rfl, rfl, rfl, rfl, rfl, rfl, rfl⟩

end Diameter
