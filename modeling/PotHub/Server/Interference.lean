import PotHub.Server.UserQuery

/-!
# What one report does to the others

Two runs of the 14-day query, over a table and over the same table with one
more report of the user in it.  The reply is to be the same, but for the object
of that report.

A report that is cut short hides all that stand behind it, and one with a date
that is not taken leaves nothing of the reply.
-/

namespace PotHub.Server

open PotHub.Json PotHub.Lib

variable {D : Type} (m : Doubles D)

/-- The report between `before` and `after` adds at most its own object to the
array, behind what is shown of `before`. -/
def Unaffected (before : List (PotholeReport D)) (report : PotholeReport D)
    (after : List (PotholeReport D)) (date : Text) : Prop :=
  ∃ front own back : List (CJson D), own.length ≤ 1 ∧
    getUserPotholesBy14DaysJson m before report.user date = .json (.array front) ∧
    getUserPotholesBy14DaysJson m (before ++ after) report.user date =
      .json (.array (front ++ back)) ∧
    getUserPotholesBy14DaysJson m (before ++ report :: after) report.user date =
      .json (.array (front ++ own ++ back))

/-- Among rows of one user, `report` does no harm: what is fetched without it
can be read; and `report`, if it is fetched, can be read, or is cut short in
front of nothing that is to be shown. -/
def Harmless (before : List (PotholeReport D)) (report : PotholeReport D)
    (after : List (PotholeReport D)) (date : Text) : Prop :=
  (∀ row ∈ fetched (before ++ after), row.Readable date) ∧
    ((∀ row ∈ before, ¬ row.Truncated) →
      if report.Truncated then ∀ row ∈ fetched after, ¬ row.Recent date
      else report.Readable date)

variable {m} {before after : List (PotholeReport D)} {report : PotholeReport D} {date : Text}

theorem flatMap_shown_eq_nil_iff {rows : List (PotholeReport D)}
    (h : ∀ row ∈ rows, row.Readable date) :
    rows.flatMap (shown m date) = [] ↔ ∀ row ∈ rows, ¬ row.Recent date := by
  rw [List.flatMap_eq_nil_iff]
  refine forall₂_congr fun row hrow => ⟨fun hnil hrecent => ?_, shown_of_not_recent (h row hrow)⟩
  rw [shown_of_recent (h row hrow) hrecent] at hnil
  cases hnil

/-! ## The rows of one user -/

section Rows

variable {rows others : List (PotholeReport D)}

/-- The property, of the row loop over the rows of the user. -/
def RowsUnaffected (m : Doubles D) (rows : List (PotholeReport D)) (report : PotholeReport D)
    (others : List (PotholeReport D)) (date : Text) : Prop :=
  ∃ front own back : List (CJson D), own.length ≤ 1 ∧
    rowLoop m date rows [] = .json (.array front) ∧
    rowLoop m date (rows ++ others) [] = .json (.array (front ++ back)) ∧
    rowLoop m date (rows ++ report :: others) [] = .json (.array (front ++ own ++ back))

/-- The loop ends among the rows in front of the report. -/
theorem rowsUnaffected_iff_of_not_reached (hrows : ¬ ∀ row ∈ rows, ¬ row.Truncated) :
    RowsUnaffected m rows report others date ↔ ∀ row ∈ fetched rows, row.Readable date := by
  simp only [RowsUnaffected, rowLoop_eq_json_iff, List.nil_append, CJson.array.injEq,
    fetched_append_of_truncated hrows]
  constructor
  · rintro ⟨front, own, back, -, ⟨hread, -⟩, -⟩
    exact hread
  · intro hread
    refine ⟨_, [], [], Nat.zero_le _, ⟨hread, rfl⟩, ⟨hread, ?_⟩, hread, ?_⟩
    · rw [List.append_nil]
    · rw [List.append_nil, List.append_nil]

/-- The loop ends at the report. -/
theorem rowsUnaffected_iff_of_truncated (hrows : ∀ row ∈ rows, ¬ row.Truncated)
    (hcut : report.Truncated) : RowsUnaffected m rows report others date ↔
      (∀ row ∈ rows ++ fetched others, row.Readable date) ∧
        ∀ row ∈ fetched others, ¬ row.Recent date := by
  have hend : fetched (report :: others) = [] := by simp [fetched, hcut]
  simp only [RowsUnaffected, rowLoop_eq_json_iff, List.nil_append, CJson.array.injEq,
    fetched_append_of_whole hrows, fetched_of_whole hrows, hend, List.flatMap_append,
    List.append_nil]
  constructor
  · rintro ⟨front, own, back, -, ⟨-, rfl⟩, ⟨hread, hback⟩, -, hown⟩
    refine ⟨hread, ?_⟩
    have hothers : ∀ row ∈ fetched others, row.Readable date := fun row hrow =>
      hread row (List.mem_append_right _ hrow)
    have hnil : own ++ back = [] := by simpa using hown
    rw [← flatMap_shown_eq_nil_iff (m := m) hothers, ← List.append_cancel_left hback]
    exact (List.append_eq_nil_iff.1 hnil).2
  · rintro ⟨hread, hold⟩
    obtain ⟨hfront, hothers⟩ := List.forall_mem_append.1 hread
    refine ⟨_, [], [], Nat.zero_le _, ⟨hfront, rfl⟩, ⟨hread, ?_⟩, hfront, ?_⟩
    · rw [(flatMap_shown_eq_nil_iff hothers).2 hold]
    · rw [List.append_nil, List.append_nil]

/-- The loop goes on behind the report. -/
theorem rowsUnaffected_iff_of_not_truncated (hrows : ∀ row ∈ rows, ¬ row.Truncated)
    (hcut : ¬ report.Truncated) : RowsUnaffected m rows report others date ↔
      (∀ row ∈ rows ++ fetched others, row.Readable date) ∧ report.Readable date := by
  have hnext : fetched (report :: others) = report :: fetched others := by simp [fetched, hcut]
  simp only [RowsUnaffected, rowLoop_eq_json_iff, List.nil_append, CJson.array.injEq,
    fetched_append_of_whole hrows, fetched_of_whole hrows, hnext, List.flatMap_append,
    List.flatMap_cons]
  constructor
  · rintro ⟨front, own, back, -, -, ⟨hread, -⟩, hall, -⟩
    exact ⟨hread, hall report (List.mem_append_right _ List.mem_cons_self)⟩
  · rintro ⟨hread, hreport⟩
    obtain ⟨hfront, hothers⟩ := List.forall_mem_append.1 hread
    refine ⟨_, shown m date report, _, length_shown_le report, ⟨hfront, rfl⟩, ⟨hread, rfl⟩, ?_, ?_⟩
    · exact List.forall_mem_append.2 ⟨hfront, List.forall_mem_cons.2 ⟨hreport, hothers⟩⟩
    · rw [List.append_assoc]

theorem rowsUnaffected_iff :
    RowsUnaffected m rows report others date ↔ Harmless rows report others date := by
  rw [Harmless]
  by_cases hrows : ∀ row ∈ rows, ¬ row.Truncated
  · rw [fetched_append_of_whole hrows]
    by_cases hcut : report.Truncated
    · rw [rowsUnaffected_iff_of_truncated hrows hcut, if_pos hcut, forall_prop_of_true hrows]
    · rw [rowsUnaffected_iff_of_not_truncated hrows hcut, if_neg hcut, forall_prop_of_true hrows]
  · rw [rowsUnaffected_iff_of_not_reached hrows, fetched_append_of_truncated hrows]
    exact ⟨fun h => ⟨h, fun hall => absurd hall hrows⟩, And.left⟩

end Rows

/-- **One report and the others.**  A report leaves what the query shows of the
other reports exactly when, among the reports of its user, it does no harm. -/
theorem unaffected_iff : Unaffected m before report after date ↔
    Harmless (selectByUser before report.user) report (selectByUser after report.user) date := by
  rw [← rowsUnaffected_iff (m := m)]
  simp only [Unaffected, RowsUnaffected, getUserPotholesBy14DaysJson, selectByUser_append,
    selectByUser_cons]

/-- A report of the day of the query. -/
def goodReport : PotholeReport Int :=
  ⟨41, 14, "Via Roma".toList, "fab".toList, "15/03/2024".toList, 12⟩

/-- A report with a date that does not exist. -/
def badReport : PotholeReport Int :=
  ⟨41, 14, "Via Roma".toList, "fab".toList, "99/99/2024".toList, 12⟩

/-- The report with the date that does not exist is stored behind the other, and
the query, which has shown that one, returns a pointer that is not assigned. -/
theorem not_unaffected_of_badReport :
    reportPothole [goodReport] ⟨41, 14, some "Via Roma".toList, some "fab".toList,
      some "99/99/2024".toList, 12⟩ = some [goodReport, badReport] ∧
    getUserPotholesBy14DaysJson wholeNumbers [goodReport] "fab".toList "15/03/2024".toList =
      .json (.array [goodReport.toObject wholeNumbers]) ∧
    ¬ Unaffected wholeNumbers [goodReport] badReport [] "15/03/2024".toList := by
  refine ⟨by decide +kernel, rfl, ?_⟩
  rintro ⟨front, own, back, -, -, -, hreply⟩
  have hnone : getUserPotholesBy14DaysJson wholeNumbers ([goodReport] ++ badReport :: [])
      badReport.user "15/03/2024".toList = .unassigned := rfl
  rw [hnone] at hreply
  cases hreply

end PotHub.Server
