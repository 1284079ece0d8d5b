import Geocoding.Census.Provider
import Geocoding.Proofs.Csv

/-!
# The file of a Census batch

A submission to the Census geocoder sends the addresses that are not blank as one file. Whatever the fields
hold, the file reads back as the rows that were meant, so no address can add a row, take one away, or move its
own text into a field of another.
-/

namespace Geocoding.Census

/-- The addresses that go into a batch. -/
def present (addresses : List Address) : List Address :=
  addresses.filter fun a => !a.isBlank

/-- The fields that are meant for an address. -/
def meant (a : Address) : List String :=
  [a.id, Text.trim a.street, Text.trim a.city, Text.trim a.state, Text.trim a.zip]

/-- Unless it is cancelled before, the submission sends one request, with that file in it. -/
def Client.Sends (client : Client) (addresses : List Address) (file : String) : Prop :=
  ∃ outcome : Except Error Http.Response → Except Error Answers, client.geocodeBulk addresses = .look fun fired =>
    if fired then .done (.error .cancelled)
    else .call (.post (client.base ++ "/geographies/addressbatch") [
      { name := "benchmark", value := client.benchmark },
      { name := "vintage", value := client.vintage },
      { name := "addressFile", fileName := some "addresses.csv", mediaType := some "text/csv", value := file }])
      fun reply => .done (outcome reply)

theorem partition_isBlank (addresses : List Address) :
    addresses.partition Address.isBlank = (addresses.filter Address.isBlank, present addresses) := by
  rw [List.partition_eq_filter_filter]
  rfl

/-- The answers that are made of the lines of a response. -/
def answersOf (addresses : List Address) (lines : List BatchMatch) : Answers :=
  (Answers.empty.insertAll ((addresses.filter Address.isBlank).map fun a => (a.id, .unmatched source))).insertAll
    (correlate ((present addresses).map (·.id)) lines)

/-- A batch is a submission of the addresses that are not blank. -/
theorem geocodeBulk_eq (client : Client) (addresses : List Address) :
    client.geocodeBulk addresses = (client.submit ((present addresses).map BatchRow.ofAddress)).bind fun outcome =>
      .done (outcome.map (answersOf addresses)) := by
  have hids : ((present addresses).map BatchRow.ofAddress).map (·.id) = (present addresses).map (·.id) := by
    rw [List.map_map]
    rfl
  unfold Client.geocodeBulk
  rw [partition_isBlank]
  refine congrArg (Program.bind _) (funext fun outcome => ?_)
  cases outcome with
  | error => rfl
  | ok lines => simp only [hids]; rfl

theorem geocodeBulk_of_none_present (client : Client) {addresses : List Address} (h : present addresses = []) :
    ∃ answers, client.geocodeBulk addresses = .done (.ok answers) := by
  rw [geocodeBulk_eq, h]
  exact ⟨_, rfl⟩

/-- Rows that fit into a file cost one request. -/
theorem submit_eq (client : Client) (rows : List BatchRow) (h : rows ≠ []) (hsize : rows.length ≤ maxRows) :
    client.submit rows = .look fun fired =>
      if fired then .done (.error .cancelled)
      else .call (client.batchRequest rows) fun reply => .done (batchOutcome reply) := by
  have hnonempty : ¬ rows.isEmpty = true := by simpa using h
  unfold Client.submit
  rw [if_neg hnonempty, if_neg (by omega)]
  exact Http.permitted_bind_send _ _

theorem sends_batchFile (client : Client) {addresses : List Address} (h : present addresses ≠ [])
    (hsize : (present addresses).length ≤ maxRows) :
    client.Sends addresses (batchFile ((present addresses).map BatchRow.ofAddress)) := by
  have hsubmit := submit_eq client ((present addresses).map BatchRow.ofAddress) (by simpa using h)
    (by simpa using hsize)
  -- What is made of the reply depends on nothing else, so no second request can follow.
  refine ⟨fun reply => (batchOutcome reply).map (answersOf addresses), ?_⟩
  rw [geocodeBulk_eq, hsubmit]
  refine congrArg Program.look (funext fun fired => ?_)
  cases fired <;> rfl

theorem readText_batchFile {addresses : List Address}
    (hmark : ∀ a, (present addresses).head? = some a → a.id.toList.head? ≠ some '\uFEFF') :
    Csv.readText (batchFile ((present addresses).map BatchRow.ofAddress)) = (present addresses).map meant := by
  have hfields : ((present addresses).map BatchRow.ofAddress).map BatchRow.fields =
      (present addresses).map meant := by
    rw [List.map_map]
    rfl
  rw [batchFile, hfields]
  apply Csv.readText_writeText
  · intro fields hmem
    obtain ⟨a, -, rfl⟩ := List.mem_map.1 hmem
    exact List.cons_ne_nil _ _
  · intro f fs hhead
    rw [List.head?_map, Option.map_eq_some_iff] at hhead
    obtain ⟨a, ha, hmeant⟩ := hhead
    obtain ⟨rfl, -⟩ := List.cons.inj hmeant
    exact hmark a ha

/-- A batch sends a file with one record of five fields for each address that is not blank, in their order, and
no batch is sent if there is none. -/
theorem batch_reads_back (client : Client) (addresses : List Address)
    (hsize : (present addresses).length ≤ maxRows)
    (hmark : ∀ a, (present addresses).head? = some a → a.id.toList.head? ≠ some '\uFEFF') :
    (present addresses = [] → ∃ answers, client.geocodeBulk addresses = .done (.ok answers)) ∧
    (present addresses ≠ [] → ∃ file, client.Sends addresses file ∧
      Csv.readText file = (present addresses).map meant) :=
  ⟨geocodeBulk_of_none_present client, fun h => ⟨_, sends_batchFile client h hsize, readText_batchFile hmark⟩⟩

/-- A batch with quotes, commas, a line break and empty fields, of which one address is blank. -/
theorem batch_reads_back_quoted :
    let client : Client := { base := "", benchmark := "Public_AR_Current", vintage := "Current_Current" }
    let addresses : List Address := [
      { id := "0", street := " 12 \"A\" St, Apt 3", city := "Mia\r\nmi" }, { id := "1", street := " " },
      { zip := "33131" }]
    (present addresses).length ≤ maxRows ∧
    (∀ a, (present addresses).head? = some a → a.id.toList.head? ≠ some '\uFEFF') ∧
    ∃ file, client.Sends addresses file ∧
      Csv.readText file = [["0", "12 \"A\" St, Apt 3", "Mia\r\nmi", "", ""], ["", "", "", "", "33131"]] := by
  intro client addresses
  have hpresent : present addresses =
      [{ id := "0", street := " 12 \"A\" St, Apt 3", city := "Mia\r\nmi" }, { zip := "33131" }] := by decide +kernel
  have hmark : ∀ a, (present addresses).head? = some a → a.id.toList.head? ≠ some '\uFEFF' := by
    rw [hpresent]
    rintro _ ⟨⟩
    decide
  have hsize : (present addresses).length ≤ maxRows := by
    rw [hpresent]
    decide
  obtain ⟨file, hsends, hread⟩ := (batch_reads_back client addresses hsize hmark).2 (by simp [hpresent])
  refine ⟨hsize, hmark, file, hsends, hread.trans ?_⟩
  rw [hpresent]
  decide +kernel

end Geocoding.Census
