import Diameter.Base.Acceptable
import Diameter.Base.Parse

/-!
# Base.Fields

What the struct of a capabilities message holds after its fields were read.

Fields are read one after another, and reading stops at the first that fails. A list of AVPs is
therefore empty or all the AVPs its name is about (`readLists_cer`, `readLists_cea`), and no field
fails when the dictionary names the AVPs as the base dictionary does and addresses are where they
belong (`scanStruct_cerFields`, `scanStruct_ceaFields`).
-/

namespace Diameter.Base

open Lib Datatype Dict

variable {name : String} {α : Type} {code : UInt32}

/-! ## Fields -/

/-- Reading the field leaves this part of the struct as it is. -/
def FieldReader.Keeps {α β : Type} (f : FieldReader α) (part : α → β) : Prop :=
  ∀ t a rest r r', f.read t a rest r = .ok r' → part r' = part r

section Keeps

variable {α β γ : Type} {part : α → γ}

theorem keeps_addressFields {set : α → List Address → α} (hset : ∀ r v, part (set r v) = part r) :
    (addressFields name set).Keeps part := by
  intro t a rest r r' h
  simp only [addressFields, Except.map] at h
  split at h
  · cases h
  · cases h
    exact hset _ _

theorem keeps_rawField {set : α → Option AVP → α} (hset : ∀ r v, part (set r v) = part r) :
    (rawField name set).Keeps part := by
  intro t a rest r r' h
  cases h
  exact hset _ _

theorem keeps_rawFields {set : α → List AVP → α} (hset : ∀ r v, part (set r v) = part r) :
    (rawFields name set).Keeps part := by
  intro t a rest r r' h
  cases h
  exact hset _ _

theorem keeps_valueField {name target : String} {convert : Value → Option β} {set : α → β → α}
    (hset : ∀ r v, part (set r v) = part r) :
    (valueField name target convert set).Keeps part := by
  intro t a rest r r' h
  unfold valueField at h
  dsimp only at h
  generalize (t == .address || _) = address at h
  cases address with
  | true =>
    rw [if_pos rfl] at h
    split at h <;> cases h
  | false =>
    rw [if_neg Bool.false_ne_true] at h
    split at h
    next v _ =>
      cases h
      cases convert v with
      | none => rfl
      | some x => exact hset r x
    · cases h
      rfl

end Keeps

/-- The AVPs of the message that a definition is about. -/
def matching (p : Packet) (d : Dict.AVP) : List AVP :=
  (p.message.avps.filterMap id).filter fun a => a.code == d.code && a.vendorID == d.vendorID

theorem mem_matching {p : Packet} {d : Dict.AVP} {a : AVP} :
    a ∈ matching p d ↔ some a ∈ p.message.avps ∧ a.code = d.code ∧ a.vendorID = d.vendorID := by
  simp [matching]

theorem scanStruct_keeps {α β : Type} {p : Packet} {fields : List (FieldReader α)} {part : α → β}
    (h : ∀ f ∈ fields, f.Keeps part) (r : α) : part (scanStruct p fields r).1 = part r := by
  induction fields generalizing r with
  | nil => rfl
  | cons f fields ih =>
    have hrest := ih fun g hg => h g (List.mem_cons_of_mem _ hg)
    unfold scanStruct
    split
    · rfl
    split
    · exact hrest r
    split
    · rfl
    next r' hr' => exact (hrest r').trans (h f List.mem_cons_self _ _ _ _ _ hr')

theorem scanStruct_append (p : Packet) (fields fields' : List (FieldReader α)) (r : α) :
    scanStruct p (fields ++ fields') r =
      match scanStruct p fields r with
      | (r', some e) => (r', some e)
      | (r', none) => scanStruct p fields' r' := by
  induction fields generalizing r with
  | nil => rfl
  | cons f fields ih =>
    rw [List.cons_append, scanStruct, scanStruct]
    split
    · rfl
    split
    · exact ih r
    split
    · rfl
    · exact ih _

/-- A list of AVPs in a struct: empty if reading stopped before it, and otherwise the AVPs its name
is about. -/
def ReadList (p : Packet) (name : String) (list : List AVP) (err : Option ProtocolError) : Prop :=
  (list = [] ∧ err.isSome = true) ∨
    ∃ d, p.dictionary.findAVPByName p.header.applicationID name = .ok d ∧ list = matching p d

theorem readList_scanStruct {p : Packet} {before after : List (FieldReader α)}
    {set : α → List AVP → α} {part : α → List AVP} (hset : ∀ r v, part (set r v) = v)
    (hbefore : ∀ f ∈ before, f.Keeps part) (hafter : ∀ f ∈ after, f.Keeps part) {r : α}
    (hr : part r = []) :
    ReadList p name (part (scanStruct p (before ++ rawFields name set :: after) r).1)
      (scanStruct p (before ++ rawFields name set :: after) r).2 := by
  have hkept := scanStruct_keeps (p := p) hbefore r
  rw [scanStruct_append]
  split
  next r' e heq =>
    rw [heq] at hkept
    exact .inl ⟨hkept.trans hr, rfl⟩
  next r' heq =>
    rw [heq] at hkept
    rw [scanStruct]
    split
    · exact .inl ⟨hkept.trans hr, rfl⟩
    rename_i d hd
    right
    refine ⟨d, hd, ?_⟩
    split
    next hnil => exact (scanStruct_keeps hafter r').trans (hkept.trans (hr.trans hnil.symm))
    next a rest hfilter =>
      exact (scanStruct_keeps hafter _).trans ((hset r' (a :: rest)).trans hfilter.symm)

/-- The three lists of applications in a struct. -/
structure Lists where
  acct : List AVP
  auth : List AVP
  vsai : List AVP

/-- The fields that hold them, with their setters. -/
def listFields (sa su sv : α → List AVP → α) : List (FieldReader α) :=
  [rawFields "Acct-Application-Id" sa, rawFields "Auth-Application-Id" su,
   rawFields "Vendor-Specific-Application-Id" sv]

/-- The lists are those the dictionary's names are about. -/
structure ReadLists (p : Packet) (l : Lists) (err : Option ProtocolError) : Prop where
  acct : ReadList p "Acct-Application-Id" l.acct err
  auth : ReadList p "Auth-Application-Id" l.auth err
  vsai : ReadList p "Vendor-Specific-Application-Id" l.vsai err

theorem readLists_scanStruct (p : Packet) {front back : List (FieldReader α)} {lists : α → Lists}
    {sa su sv : α → List AVP → α} (hfront : ∀ f ∈ front, f.Keeps lists)
    (hback : ∀ f ∈ back, f.Keeps lists) (ha : ∀ r v, lists (sa r v) = { lists r with acct := v })
    (hu : ∀ r v, lists (su r v) = { lists r with auth := v })
    (hv : ∀ r v, lists (sv r v) = { lists r with vsai := v }) {r : α} (hr : lists r = ⟨[], [], []⟩)
    :
    ReadLists p (lists (scanStruct p (front ++ listFields sa su sv ++ back) r).1)
      (scanStruct p (front ++ listFields sa su sv ++ back) r).2 := by
  have hpart : ∀ {β : Type} (part : Lists → β) {fs : List (FieldReader α)},
      (∀ f ∈ fs, f.Keeps lists) → ∀ f ∈ fs, f.Keeps (part ∘ lists) :=
    fun part _ h f hf t a rest r r' hread => congrArg part (h f hf t a rest r r' hread)
  have hsplit : ∀ (one two three : FieldReader α), front ++ [one, two, three] ++ back =
      front ++ one :: (two :: three :: back) := by simp
  have hsplit' : ∀ (one two three : FieldReader α), front ++ [one, two, three] ++ back =
      (front ++ [one]) ++ two :: (three :: back) := by simp
  have hsplit'' : ∀ (one two three : FieldReader α), front ++ [one, two, three] ++ back =
      (front ++ [one, two]) ++ three :: back := by simp
  refine ⟨?_, ?_, ?_⟩
  · rw [listFields, hsplit]
    refine @readList_scanStruct _ α p front _ sa (Lists.acct ∘ lists)
      (fun r v => congrArg Lists.acct (ha r v)) (hpart _ hfront) ?_ r (congrArg Lists.acct hr)
    exact List.forall_mem_cons.2 ⟨keeps_rawFields fun r v => by simp [hu],
      List.forall_mem_cons.2 ⟨keeps_rawFields fun r v => by simp [hv],
        hpart _ hback⟩⟩
  · rw [listFields, hsplit']
    refine @readList_scanStruct _ α p _ _ su (Lists.auth ∘ lists)
      (fun r v => congrArg Lists.auth (hu r v)) ?_ ?_ r (congrArg Lists.auth hr)
    · exact List.forall_mem_append.2 ⟨hpart _ hfront, List.forall_mem_singleton.2
        (keeps_rawFields fun r v => by simp [ha])⟩
    · exact List.forall_mem_cons.2 ⟨keeps_rawFields fun r v => by simp [hv],
        hpart _ hback⟩
  · rw [listFields, hsplit'']
    refine @readList_scanStruct _ α p _ _ sv (Lists.vsai ∘ lists)
      (fun r v => congrArg Lists.vsai (hv r v)) ?_ (hpart _ hback) r (congrArg Lists.vsai hr)
    exact List.forall_mem_append.2 ⟨hpart _ hfront, List.forall_mem_cons.2
      ⟨keeps_rawFields fun r v => by simp [ha], List.forall_mem_singleton.2
        (keeps_rawFields fun r v => by simp [hu])⟩⟩

def cerLists (r : CER) : Lists :=
  ⟨r.acctApplicationID, r.authApplicationID, r.vendorSpecificApplicationID⟩

def ceaLists (r : CEA) : Lists :=
  ⟨r.acctApplicationID, r.authApplicationID, r.vendorSpecificApplicationID⟩

theorem readLists_cer (p : Packet) :
    ReadLists p (cerLists (scanStruct p cerFields {}).1) (scanStruct p cerFields {}).2 := by
  refine @readLists_scanStruct CER p (cerFields.take 5) [] cerLists _ _ _ ?_
    nofun (fun _ _ => rfl) (fun _ _ => rfl) (fun _ _ => rfl) {} rfl
  intro f hf
  simp only [cerFields, List.take_succ_cons, List.take_zero, List.mem_cons, List.not_mem_nil,
    or_false] at hf
  rcases hf with rfl | rfl | rfl | rfl | rfl
  · exact keeps_addressFields fun _ _ => rfl
  · exact keeps_valueField fun _ _ => rfl
  · exact keeps_valueField fun _ _ => rfl
  · exact keeps_rawField fun _ _ => rfl
  · exact keeps_rawField fun _ _ => rfl

theorem readLists_cea (p : Packet) :
    ReadLists p (ceaLists (scanStruct p ceaFields {}).1) (scanStruct p ceaFields {}).2 := by
  refine @readLists_scanStruct CEA p (ceaFields.take 8) (ceaFields.drop 11) ceaLists _ _ _ ?_ ?_
    (fun _ _ => rfl) (fun _ _ => rfl) (fun _ _ => rfl) {} rfl
  · intro f hf
    simp only [ceaFields, List.take_succ_cons, List.take_zero, List.mem_cons, List.not_mem_nil,
      or_false] at hf
    rcases hf with rfl | rfl | rfl | rfl | rfl | rfl | rfl | rfl
    · exact keeps_addressFields fun _ _ => rfl
    · exact keeps_valueField fun _ _ => rfl
    · exact keeps_valueField fun _ _ => rfl
    · exact keeps_valueField fun _ _ => rfl
    · exact keeps_valueField fun _ _ => rfl
    · exact keeps_valueField fun _ _ => rfl
    · exact keeps_valueField fun _ _ => rfl
    · exact keeps_rawFields fun _ _ => rfl
  · intro f hf
    simp only [ceaFields, List.drop_succ_cons, List.drop_zero, List.mem_cons, List.not_mem_nil,
      or_false] at hf
    rcases hf with rfl | rfl
    · exact keeps_rawFields fun _ _ => rfl
    · exact keeps_valueField fun _ _ => rfl

/-! ## What a node reads of its own messages -/

/-- The dictionary names the AVPs of the base protocol as the base dictionary does. -/
def BaseNames (s : Snapshot) : Prop :=
  ∀ d ∈ baseAVPs, ∃ d', s.findAVPByName 0 d.name = .ok d' ∧ d'.code = d.code ∧
    d'.vendorID = d.vendorID ∧ d'.data.type = d.data.type

theorem baseNames_grammarDictionary : BaseNames grammarDictionary :=
  fun d hd => ⟨d, findAVPByName_iff.2 ⟨hd, rfl⟩, rfl, rfl, rfl⟩

/-- The fields of the structs, with the codes and types of their names. -/
def fieldNames : List (String × UInt32 × TypeID) :=
  [("Host-IP-Address", hostIPAddressCode, .address), ("Result-Code", 268, .unsigned32),
   ("Origin-Host", originHostCode, .diameterIdentity),
   ("Origin-Realm", originRealmCode, .diameterIdentity),
   ("Origin-State-Id", originStateIDCode, .unsigned32),
   ("Inband-Security-Id", inbandSecurityIDCode, .unsigned32),
   ("Vendor-Id", vendorIDCode, .unsigned32), ("Product-Name", productNameCode, .utf8String),
   ("Supported-Vendor-Id", supportedVendorIDCode, .unsigned32),
   ("Acct-Application-Id", acctApplicationIDCode, .unsigned32),
   ("Auth-Application-Id", authApplicationIDCode, .unsigned32),
   ("Vendor-Specific-Application-Id", vendorSpecificApplicationIDCode, .grouped),
   ("Failed-AVP", failedAVPCode, .grouped), ("Error-Message", 281, .utf8String)]

theorem fieldNames_baseAVPs : fieldNames.all (fun entry => baseAVPs.any fun d =>
    d.name == entry.1 && d.code == entry.2.1 && d.vendorID == 0 &&
      d.data.type == entry.2.2) = true := by
  decide +kernel

theorem BaseNames.field {s : Snapshot} (h : BaseNames s) {t : TypeID}
    (hentry : (name, code, t) ∈ fieldNames) :
    ∃ d, s.findAVPByName 0 name = .ok d ∧ d.code = code ∧ d.vendorID = 0 ∧ d.data.type = t := by
  obtain ⟨d, hd, hkey⟩ := List.any_eq_true.1 (List.all_eq_true.1 fieldNames_baseAVPs _ hentry)
  simp only [Bool.and_eq_true, beq_iff_eq] at hkey
  obtain ⟨⟨⟨hname, hcode⟩, hvendor⟩, htype⟩ := hkey
  obtain ⟨d', hd', hcode', hvendor', htype'⟩ := h d hd
  rw [hname] at hd'
  exact ⟨d', hd', hcode'.trans hcode, hvendor'.trans hvendor, htype'.trans htype⟩

/-- The field's name is known, and what it is about can be stored. -/
def FieldReader.Accepts (p : Packet) (f : FieldReader α) : Prop :=
  ∃ d, p.dictionary.findAVPByName p.header.applicationID f.name = .ok d ∧
    ∀ a rest, matching p d = a :: rest → ∀ r, ∃ r', f.read d.data.type a rest r = .ok r'

theorem scanStruct_accepts {p : Packet} {fields : List (FieldReader α)}
    (h : ∀ f ∈ fields, f.Accepts p) (r : α) : (scanStruct p fields r).2 = none := by
  induction fields generalizing r with
  | nil => rfl
  | cons f fields ih =>
    obtain ⟨d, hd, hread⟩ := h f List.mem_cons_self
    have hrest := ih fun g hg => h g (List.mem_cons_of_mem _ hg)
    rw [scanStruct, hd]
    dsimp only
    split
    · exact hrest r
    rename_i a rest hmatching
    obtain ⟨r', hr'⟩ := hread a rest hmatching r
    rw [hr']
    exact hrest r'

/-- An AVP the readers take: an address is where the name says so, and nowhere else. -/
structure Readable (a : AVP) : Prop where
  address : a.code = hostIPAddressCode → ∃ x, a.data = .value (.address x) ∧ x.valid = .ok ()
  other : a.code ≠ hostIPAddressCode → a.code ≠ proxyInfoCode →
    ∀ x, a.data ≠ .value (.address x)

section Readers
variable {α : Type} {p : Packet} (hnames : BaseNames p.dictionary)
  (happ : p.header.applicationID = 0)
include hnames happ

theorem accepts_rawField {set : α → Option AVP → α} {t : TypeID}
    (hentry : (name, code, t) ∈ fieldNames) : (rawField name set).Accepts p := by
  obtain ⟨d, hd, -⟩ := hnames.field hentry
  rw [← happ] at hd
  exact ⟨d, hd, fun a rest _ r => ⟨_, rfl⟩⟩

theorem accepts_rawFields {set : α → List AVP → α} {t : TypeID}
    (hentry : (name, code, t) ∈ fieldNames) : (rawFields name set).Accepts p := by
  obtain ⟨d, hd, -⟩ := hnames.field hentry
  rw [← happ] at hd
  exact ⟨d, hd, fun a rest _ r => ⟨_, rfl⟩⟩

variable (hreadable : ∀ a, some a ∈ p.message.avps → Readable a)
include hreadable

theorem accepts_addressFields {set : α → List Address → α} :
    (addressFields "Host-IP-Address" set).Accepts p := by
  obtain ⟨d, hd, hcode, -, -⟩ := hnames.field (show ("Host-IP-Address", _, _) ∈ fieldNames from
    List.mem_cons_self)
  rw [← happ] at hd
  refine ⟨d, hd, fun a rest hmatching r => ?_⟩
  have hread : ∀ b ∈ a :: rest, ∃ x, readAddress "datatype.Address" b = .ok x := by
    intro b hb
    rw [← hmatching, mem_matching] at hb
    obtain ⟨x, hx, hvalid⟩ := (hreadable b hb.1).address (hb.2.1.trans hcode)
    exact ⟨x, by rw [readAddress, hx]; dsimp only; rw [hvalid]; rfl⟩
  obtain ⟨xs, hxs⟩ := mapM_isOk hread
  refine ⟨set r xs, ?_⟩
  show ((a :: rest).mapM (readAddress "datatype.Address")).map (set r) = .ok (set r xs)
  rw [hxs]
  rfl

theorem accepts_valueField {β : Type} {name target : String} {convert : Value → Option β}
    {set : α → β → α} {t : TypeID} (hentry : (name, code, t) ∈ fieldNames) (ht : t ≠ .address)
    (hhost : code ≠ hostIPAddressCode) (hproxy : code ≠ proxyInfoCode) :
    (valueField name target convert set).Accepts p := by
  obtain ⟨d, hd, rfl, -, rfl⟩ := hnames.field hentry
  rw [← happ] at hd
  refine ⟨d, hd, fun a rest hmatching r => ?_⟩
  obtain ⟨hmem, hcode, -⟩ := mem_matching.1 (hmatching ▸ List.mem_cons_self)
  have hother := (hreadable a hmem).other (hcode ▸ hhost) (hcode ▸ hproxy)
  simp only [valueField, beq_eq_false_iff_ne.2 ht, Bool.false_or]
  cases hdata : a.data with
  | value v =>
    cases v with
    | address x => exact absurd hdata (hother x)
    | _ => exact ⟨_, rfl⟩
  | _ => exact ⟨_, rfl⟩

theorem scanStruct_cerFields : (scanStruct p cerFields {}).2 = none := by
  refine scanStruct_accepts (fun f hf => ?_) _
  have hin : ∀ {i : Nat} {e}, fieldNames[i]? = some e → e ∈ fieldNames := List.mem_of_getElem?
  simp only [cerFields, List.mem_cons, List.not_mem_nil, or_false] at hf
  rcases hf with rfl | rfl | rfl | rfl | rfl | rfl | rfl | rfl
  · exact accepts_addressFields hnames happ hreadable
  · exact accepts_valueField hnames happ hreadable (hin (i := 2) rfl) (by decide) (by decide)
      (by decide)
  · exact accepts_valueField hnames happ hreadable (hin (i := 3) rfl) (by decide) (by decide)
      (by decide)
  · exact accepts_rawField hnames happ (hin (i := 4) rfl)
  · exact accepts_rawField hnames happ (hin (i := 5) rfl)
  · exact accepts_rawFields hnames happ (hin (i := 9) rfl)
  · exact accepts_rawFields hnames happ (hin (i := 10) rfl)
  · exact accepts_rawFields hnames happ (hin (i := 11) rfl)

theorem scanStruct_ceaFields : (scanStruct p ceaFields {}).2 = none := by
  refine scanStruct_accepts (fun f hf => ?_) _
  have hin : ∀ {i : Nat} {e}, fieldNames[i]? = some e → e ∈ fieldNames := List.mem_of_getElem?
  have hvalue : ∀ {β : Type} {name target : String} {convert : Value → Option β}
      {set : CEA → β → CEA} {code : UInt32} {t : TypeID} (i : Nat),
      fieldNames[i]? = some (name, code, t) → t ≠ .address ∧ code ≠ hostIPAddressCode ∧
        code ≠ proxyInfoCode → (valueField name target convert set).Accepts p :=
    fun i hi hne => accepts_valueField hnames happ hreadable (hin hi) hne.1 hne.2.1 hne.2.2
  simp only [ceaFields, List.mem_cons, List.not_mem_nil, or_false] at hf
  rcases hf with rfl | rfl | rfl | rfl | rfl | rfl | rfl | rfl | rfl | rfl | rfl | rfl | rfl
  · exact accepts_addressFields hnames happ hreadable
  · exact hvalue 1 rfl (by decide)
  · exact hvalue 2 rfl (by decide)
  · exact hvalue 3 rfl (by decide)
  · exact hvalue 4 rfl (by decide)
  · exact hvalue 6 rfl (by decide)
  · exact hvalue 7 rfl (by decide)
  · exact accepts_rawFields hnames happ (hin (i := 8) rfl)
  · exact accepts_rawFields hnames happ (hin (i := 9) rfl)
  · exact accepts_rawFields hnames happ (hin (i := 10) rfl)
  · exact accepts_rawFields hnames happ (hin (i := 11) rfl)
  · exact accepts_rawFields hnames happ (hin (i := 12) rfl)
  · exact hvalue 13 rfl (by decide)

end Readers

end Diameter.Base
