import PotHub.Server.DoWork

/-!
# A tracking session

The reports of a session come one after another on one connection, with nothing
in between, and a run of `doWork` receives all that has piled up.  It parses the
first value of what it has received and leaves the rest; so it is the reports
that come alone that are taken up.
-/

namespace PotHub.Server

open PotHub.Json PotHub.Lib

variable {D : Type}

/-- A report as the client sends it: the text, without a zero in it, is read as
the report. -/
structure SentReport (m : Doubles D) where
  text : Text
  pothole : Pothole D
  noZero : '\x00' ∉ text
  reads : request m text = some (.reportPothole pothole)

/-- Whole reports that one `recv` returns together, in front of an
`EWOULDBLOCK`, with the memory that the run finds. -/
structure Burst (m : Doubles D) where
  reports : List (SentReport m)
  nonempty : reports ≠ []
  fits : (reports.flatMap SentReport.text).length ≤ bufferSize - 1
  /-- The buffer on entry. -/
  buffer : Text
  buffer_length : buffer.length = bufferSize
  /-- The memory behind the buffer. -/
  beyond : Text

theorem SentReport.text_pos {m : Doubles D} (report : SentReport m) : 0 < report.text.length := by
  refine List.length_pos_iff.2 fun h => ?_
  have := report.reads
  simp [request, h, cJSON_Parse_nil] at this

namespace Burst

variable {m : Doubles D} (burst : Burst m)

/-- The bytes of the burst. -/
def bytes : Text := burst.reports.flatMap SentReport.text

/-- The report at the front. -/
def first : SentReport m := burst.reports.head burst.nonempty

theorem bytes_eq : ∃ rest, burst.bytes = burst.first.text ++ rest := by
  obtain ⟨report, reports, h⟩ := List.exists_cons_of_ne_nil burst.nonempty
  exact ⟨reports.flatMap SentReport.text, by simp [bytes, first, h]⟩

theorem bytes_pos : 0 < burst.bytes.length := by
  obtain ⟨rest, h⟩ := burst.bytes_eq
  have := burst.first.text_pos
  rw [h, List.length_append]
  omega

theorem noZero : '\x00' ∉ burst.bytes := by
  intro h
  obtain ⟨report, -, hzero⟩ := List.mem_flatMap.1 h
  exact report.noZero hzero

/-- What the calls of `recv` give. -/
def received : Received where
  chunks := [burst.bytes]
  chunk_pos c hc := List.mem_singleton.1 hc ▸ burst.bytes_pos
  chunk_le c hc := by
    rw [List.mem_singleton.1 hc]
    exact Nat.le_trans burst.fits (Nat.sub_le ..)
  last := .wouldBlock

theorem received_bytes : burst.received.bytes = burst.bytes := by
  simp [Received.bytes, received, readLoop, recvInto]

end Burst

variable (world : World D)

/-- A run takes up the first report of its burst. -/
theorem doWork_burst (burst : Burst world.doubles) :
    doWork world burst.buffer burst.beyond burst.received =
      ⟨[.reportPothole burst.first.pothole], [], false⟩ := by
  obtain ⟨rest, h⟩ := burst.bytes_eq
  rw [doWork_wouldBlock rfl, burst.received_bytes, cString_append_of_not_mem burst.noZero, h,
    List.append_assoc, serve, request_append_of_some burst.first.reads]

/-- The calls that the runs of a session make, as long as none of them closes
the connection. -/
def session : List (Burst world.doubles) → List (DbCall D)
  | [] => []
  | burst :: bursts =>
      let run := doWork world burst.buffer burst.beyond burst.received
      run.calls ++ if run.closeConn then [] else session bursts

theorem session_eq (bursts : List (Burst world.doubles)) :
    session world bursts = bursts.map fun b => .reportPothole b.first.pothole := by
  induction bursts with
  | nil => rfl
  | cons burst bursts ih => simp [session, doWork_burst, ih]

/-- The calls that the reports of a session ask for. -/
def reported {m : Doubles D} (bursts : List (Burst m)) : List (DbCall D) :=
  bursts.flatMap fun b => b.reports.map fun report => .reportPothole report.pothole

theorem length_le_reported {m : Doubles D} (bursts : List (Burst m)) :
    bursts.length ≤ (reported bursts).length := by
  induction bursts with
  | nil => exact Nat.zero_le _
  | cons burst bursts ih =>
      have := List.length_pos_iff.2 burst.nonempty
      simp only [reported, List.flatMap_cons, List.length_append, List.length_map,
        List.length_cons] at ih ⊢
      omega

/-- **One report a burst.**  A session takes up all the reports it is sent, in
order and each once, exactly when they come alone. -/
theorem session_eq_reported_iff (bursts : List (Burst world.doubles)) :
    session world bursts = reported bursts ↔ ∀ burst ∈ bursts, burst.reports.length = 1 := by
  rw [session_eq]
  constructor
  · intro h
    -- a burst is at least one report, so with equal numbers it is no more
    replace h := congrArg List.length h
    rw [List.length_map] at h
    induction bursts with
    | nil => simp
    | cons burst bursts ih =>
        have hpos := List.length_pos_iff.2 burst.nonempty
        have hle := length_le_reported bursts
        simp only [reported, List.flatMap_cons, List.length_append, List.length_map,
          List.length_cons] at h hle
        refine List.forall_mem_cons.2 ⟨by omega, ih ?_⟩
        simp only [reported]
        omega
  · intro h
    induction bursts with
    | nil => rfl
    | cons burst bursts ih =>
        obtain ⟨hone, hrest⟩ := List.forall_mem_cons.1 h
        obtain ⟨report, hreport⟩ := List.length_eq_one_iff.1 hone
        rw [List.map_cons, ih hrest]
        simp [reported, Burst.first, hreport]

/-- A report, as text. -/
def plainReport : SentReport wholeNumbers where
  text := ("\x7b\"latitude\":0,\"longitude\":0,\"address\":\"a\",\"user\":\"u\"," ++
    "\"intensity\":1,\"timestamp\":\"01/01/2024\",\"action\":1\x7d").toList
  pothole := ⟨0, 0, some "a".toList, some "u".toList, some "01/01/2024".toList, 1⟩
  noZero := by decide +kernel
  reads := by decide +kernel

/-- Two reports that one `recv` returns together. -/
def twoReports : Burst noReports.doubles where
  reports := [plainReport, plainReport]
  nonempty := by simp
  fits := by decide +kernel
  buffer := List.replicate bufferSize '\x00'
  buffer_length := List.length_replicate ..
  beyond := []

theorem session_ne_reported_of_twoReports :
    session noReports [twoReports] ≠ reported [twoReports] := by
  decide +kernel

end PotHub.Server
