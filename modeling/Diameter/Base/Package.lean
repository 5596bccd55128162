import Diameter.Base.ErrorAnswer
import Diameter.Base.Parse

/-!
# Base.Package

Package `base` as an instance of the interface the connection core is written against: every
result about the core holds with these functions.
-/

namespace Diameter.Base

open Datatype Dict

/-- A message a builder made, with the dictionary it was made with. -/
def packet (s : Snapshot) (built : Except String Message) : Except ProtocolError Packet :=
  match built with
  | .ok m => .ok ⟨m, s⟩
  | .error e => .error (.other e)

theorem packet_eq_ok {s : Snapshot} {built : Except String Message} {p : Packet} :
    packet s built = .ok p ↔ ∃ m, built = .ok m ∧ p = ⟨m, s⟩ := by
  cases built with
  | error e => simp [packet]
  | ok m => simp [packet, eq_comm]

/-- `BuildCEA`: protocol errors have the generic grammar. -/
def buildCEAResult (drawn : Drawn) (p : Packet) (cfg : Settings) (code : UInt32) :
    Except String Message :=
  if protocolErrorCode code then buildErrorAnswer drawn p cfg code [] true
  else buildCEA drawn p.message cfg code

theorem addFields_answers {m m' : Message} {fields : List Field} {h : Header}
    (hm : Answers m.header h) (hadd : addFields m fields = .ok m') : Answers m'.header h :=
  (addFields_ok hadd).header.answers hm

theorem buildCEA_answers {drawn : Drawn} {request m : Message} {cfg : Settings} {code : UInt32}
    (h : buildCEA drawn request cfg code = .ok m) : Answers m.header request.header := by
  obtain ⟨addresses, -, h⟩ := Lib.bind_eq_ok.1 h
  obtain ⟨a, ha, h⟩ := Lib.bind_eq_ok.1 h
  refine addFields_answers ?_ h
  have hlocal := addFields_answers (baseAnswer_answers drawn request code) ha
  split
  · exact ((adds_addAVPs _ _).trans (adds_addAVPs _ _)).header.answers hlocal
  · exact hlocal

theorem buildCEAResult_answers {drawn : Drawn} {p : Packet} {cfg : Settings} {code : UInt32}
    {m : Message} (h : buildCEAResult drawn p cfg code = .ok m) : Answers m.header p.header := by
  unfold buildCEAResult at h
  split at h
  · exact buildErrorAnswer_answers h
  · exact buildCEA_answers h

/-! Requests keep the header they were made with. -/

theorem newRequest_asks (drawn : Drawn) (cmd : BaseCommand) (s : Snapshot) :
    (newRequest drawn cmd.code 0 s).header.Asks cmd := by
  unfold newRequest newMessage
  refine ⟨?_, ?_⟩
  · dsimp only [Header.isRequest]
    split <;> decide
  · simp [Header.isBase]

theorem Adds.asks {m m' : Message} {as : List AVP} {cmd : BaseCommand} (h : Adds m as m')
    (hm : m.header.Asks cmd) : m'.header.Asks cmd := by
  obtain ⟨hrequest, hbase⟩ := hm
  unfold Header.isRequest at hrequest
  unfold Header.isBase at hbase
  rw [← h.header.commandFlags] at hrequest
  rw [← h.header.applicationID, ← h.header.commandCode] at hbase
  exact ⟨hrequest, hbase⟩

/-- The package, with the identifiers `NewMessage` draws. -/
@[reducible] def package (drawn : Drawn) : BasePackage where
  validateCapabilities := validateCapabilities
  advertisedApplicationIDs := advertisedApplicationIDs
  validateMessage p := validateMessage p.message
  validateRequest := validateRequest
  parseCER := parseCER
  parseCEA := parseCEA
  parseDWR := parseDWR
  parseDWA := parseDWA
  buildCER s cfg := packet s (buildCER drawn s cfg)
  buildDWR s cfg osid := packet s (buildDWR drawn s cfg osid)
  buildDPR s cfg cause := packet s (buildDPR drawn s cfg cause)
  buildCEA p cfg code := packet p.dictionary (buildCEAResult drawn p cfg code)
  buildDWA p cfg := packet p.dictionary (buildDWA drawn p.message cfg)
  buildDPAResult p cfg code := packet p.dictionary (buildDPAResult drawn p.message cfg code)
  buildErrorAnswer p cfg code failed e :=
    packet p.dictionary (buildErrorAnswer drawn p cfg code failed e)
  buildCER_asks h := by
    obtain ⟨m, hm, rfl⟩ := packet_eq_ok.1 h
    exact (buildCER_adds hm).asks (newRequest_asks _ _ _)
  buildDWR_asks h := by
    obtain ⟨m, hm, rfl⟩ := packet_eq_ok.1 h
    exact (addFields_ok hm).asks (newRequest_asks _ _ _)
  buildDPR_asks h := by
    obtain ⟨m, hm, rfl⟩ := packet_eq_ok.1 h
    exact (addFields_ok hm).asks (newRequest_asks _ _ _)
  validateRequest_answer := validateRequest_answer
  buildCEA_answers h := by
    obtain ⟨m, hm, rfl⟩ := packet_eq_ok.1 h
    exact buildCEAResult_answers hm
  buildDWA_answers h := by
    obtain ⟨m, hm, rfl⟩ := packet_eq_ok.1 h
    exact addFields_answers (baseAnswer_answers _ _ _) hm
  buildDPAResult_answers h := by
    obtain ⟨m, hm, rfl⟩ := packet_eq_ok.1 h
    exact addFields_answers (baseAnswer_answers _ _ _) hm
  buildErrorAnswer_answers h := by
    obtain ⟨m, hm, rfl⟩ := packet_eq_ok.1 h
    exact buildErrorAnswer_answers hm

end Diameter.Base
