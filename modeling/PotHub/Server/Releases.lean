import PotHub.Server.Pointers

/-!
# What a run releases

What a run of `doWork` leaves behind, function by function, and exactly.  The
functions close what they have opened but on their early returns; the nodes that
are not on the array, the text of the reply and the tree of the request are never
freed, since the label `end` of `doWork` frees what is NULL.  Nothing is released
twice, and nothing that was not acquired.
-/

namespace PotHub.Server

open PotHub.Json PotHub.Lib

variable {D : Type}

/-! ## The nodes of the rows -/

namespace Rows

/-- The account of the loop over the rows with the numbers `rows`: every node
belongs to one of the rows, is created once, and is then deleted, or on the
array, or detached. -/
structure Accounted (r : Rows D) (rows : List ℕ) : Prop where
  perm : (r.deleted ++ (r.attached ++ r.detached)).Perm r.created
  nodup : r.created.Nodup
  of_row : ∀ x ∈ r.created, ∃ i ∈ rows, ∃ name, x = .node i name

variable {r r' : Rows D} {rows rows' : List ℕ}

theorem accounted_nothing (stop : RowsEnd) : (nothing stop : Rows D).Accounted rows where
  perm := List.Perm.refl []
  nodup := List.nodup_nil
  of_row _ hx := absurd hx List.not_mem_nil

theorem Accounted.mono (h : r.Accounted rows) (hsub : rows ⊆ rows') : r.Accounted rows' where
  perm := h.perm
  nodup := h.nodup
  of_row x hx := by
    obtain ⟨i, hi, hname⟩ := h.of_row x hx
    exact ⟨i, hsub hi, hname⟩

theorem Accounted.andThen (h : r.Accounted rows) (h' : r'.Accounted rows')
    (hdisjoint : rows.Disjoint rows') : (r.andThen r').Accounted (rows ++ rows') := by
  rw [Rows.andThen]
  split_ifs with hstop
  swap
  · exact h.mono (List.subset_append_left _ _)
  refine ⟨?_, ?_, ?_⟩
  · refine List.perm_iff_count.2 ?_
    intro x
    have hx := List.perm_iff_count.1 h.perm x
    have hx' := List.perm_iff_count.1 h'.perm x
    simp only [List.count_append] at hx hx' ⊢
    omega
  · refine List.nodup_append.2 ⟨h.nodup, h'.nodup, ?_⟩
    rintro x hx y hy rfl
    obtain ⟨i, hi, name, rfl⟩ := h.of_row x hx
    obtain ⟨j, hj, name', hij⟩ := h'.of_row _ hy
    obtain ⟨rfl, -⟩ := Resource.node.inj hij
    exact hdisjoint hi hj
  · intro x hx
    rcases List.mem_append.1 hx with hx | hx
    · exact (h.mono (List.subset_append_left _ _)).of_row x hx
    · exact (h'.mono (List.subset_append_right _ _)).of_row x hx

/-- The account of a loop, from the accounts of its turns. -/
theorem accounted_loop {α : Type} {turn : α → ℕ → Rows D} {rows : List (α × ℕ)}
    (hturn : ∀ row i, (turn row i).Accounted [i]) (hnodup : (rows.map Prod.snd).Nodup) :
    (loop turn rows).Accounted (rows.map Prod.snd) := by
  induction rows with
  | nil => exact accounted_nothing _
  | cons p rows ih =>
      obtain ⟨hnew, hrest⟩ := List.nodup_cons.1 hnodup
      exact (hturn p.1 p.2).andThen (ih hrest) (List.singleton_disjoint.2 hnew)

end Rows

namespace Outcomes

variable {o : Outcomes} {w : Surroundings D}

theorem accounted_of_filter (i : ℕ) (create : NodeName → Bool) {r : Rows D}
    (hperm : (r.deleted ++ (r.attached ++ r.detached)).Perm r.created)
    (hcreated : r.created =
      ((NodeName.pothole :: memberNodes).filter create).map (.node i)) : r.Accounted [i] where
  perm := hperm
  nodup := by
    rw [hcreated]
    refine List.Nodup.map (fun name name' h => (Resource.node.inj h).2) ?_
    exact List.Nodup.filter _ (by decide)
  of_row x hx := by
    rw [hcreated] at hx
    obtain ⟨name, -, rfl⟩ := List.mem_map.1 hx
    exact ⟨i, List.mem_singleton_self i, name, rfl⟩

theorem accounted_addRow (i : ℕ) (object : CJson D) : (o.addRow i object).Accounted [i] := by
  refine accounted_of_filter i (o.create i) ?_ ?_
  · rw [addRow]
    split_ifs with hall
    · have hcreated : (NodeName.pothole :: memberNodes).filter (o.create i) =
          NodeName.pothole :: memberNodes := List.filter_eq_self.2 hall
      simp only [hcreated, List.nil_append, ← List.map_append, List.cons_append]
      exact ((List.filter_append_perm _ _).cons _).map _
    · simp only [List.nil_append, ← List.map_append, ← List.filter_append]
      exact List.Perm.refl _
  · rw [addRow]
    split_ifs <;> rfl

theorem accounted_rangeRow (latitude longitude range : D) (row : TextRow) (i : ℕ) :
    (o.rangeRow w latitude longitude range row i).Accounted [i] := by
  simp only [rangeRow]
  split_ifs
  · exact accounted_addRow ..
  · exact Rows.accounted_nothing _

/-- A turn that makes the timestamp only. -/
theorem accounted_timestamp {r : Rows D} {i : ℕ} (hcreated : r.created = [.node i .timestamp])
    (hperm : (r.deleted ++ (r.attached ++ r.detached)).Perm [.node i .timestamp]) :
    r.Accounted [i] where
  perm := by rwa [hcreated]
  nodup := by
    rw [hcreated]
    exact List.nodup_singleton _
  of_row x hx := by
    rw [hcreated, List.mem_singleton] at hx
    exact ⟨i, List.mem_singleton_self i, .timestamp, hx⟩

theorem accounted_turnOf (i : ℕ) (read : Except Fault (Option (CJson D))) :
    (o.turnOf i read).Accounted [i] := by
  rcases read with (_ | _) | _ | object
  · exact Rows.accounted_nothing _
  · exact accounted_timestamp rfl (List.Perm.refl _)
  · exact accounted_timestamp rfl (List.Perm.refl _)
  · exact accounted_addRow ..

theorem accounted_userRow (date : Option Text) (row : PotholeReport D) (i : ℕ) :
    (o.userRow w date row i).Accounted [i] := by
  by_cases hdate : o.create i .timestamp = true ∧ date ≠ none
  · obtain ⟨date, rfl⟩ := Option.ne_none_iff_exists'.1 hdate.2
    rw [userRow_eq hdate.1]
    exact accounted_turnOf ..
  · -- the row is not looked at behind the timestamp
    have hnothing : ∃ stop, o.userRow w date row i = .nothing stop := by
      rw [userRow]
      cases bufferString timestampSize row.timestamp with
      | error fault => exact ⟨_, rfl⟩
      | ok timestamp =>
          by_cases hcreate : o.create i .timestamp = true
          · obtain rfl := not_not.1 fun hne => hdate ⟨hcreate, hne⟩
            exact ⟨_, if_pos hcreate⟩
          · exact ⟨_, if_neg hcreate⟩
    obtain ⟨stop, hrow⟩ := hnothing
    rw [hrow]
    exact Rows.accounted_nothing _

theorem nodup_fetched {α : Type} (rows : List α) : ((o.fetched rows).map Prod.snd).Nodup := by
  have hsub : ((o.fetched rows).map Prod.snd).Sublist (rows.zipIdx.map Prod.snd) :=
    (List.takeWhile_sublist _).map _
  rw [List.zipIdx_map_snd] at hsub
  exact hsub.nodup List.nodup_range'

theorem accounted_rangeRows (latitude longitude range : D) (rows : List TextRow) :
    (o.rangeRows w latitude longitude range (o.fetched rows)).Accounted
      ((o.fetched rows).map Prod.snd) :=
  Rows.accounted_loop (accounted_rangeRow latitude longitude range) (nodup_fetched rows)

theorem accounted_userRows (date : Option Text) (rows : List (PotholeReport D)) :
    (o.userRows w date (o.fetchedWhole rows)).Accounted
      ((o.fetchedWhole rows).map Prod.snd) :=
  Rows.accounted_loop (accounted_userRow date)
    (((List.takeWhile_sublist _).map _).nodup (nodup_fetched rows))

/-! ## The functions on the database -/

/-- What the ledger of a function leaves; the tree of the request is not its
concern. -/
structure Keeps (l : Ledger Resource) (held : List Resource) : Prop where
  nodup : (Resource.request :: l.acquired).Nodup
  leaves : l.Leaves held

/-- What is opened and not closed is left. -/
theorem keeps_of_perm {opened closed held : List Resource}
    (hopened : (Resource.request :: opened).Nodup) (hclosed : (closed ++ held).Perm opened) :
    Keeps ⟨opened, closed⟩ held := ⟨hopened, hclosed⟩

theorem keeps_empty : Keeps .empty [] := keeps_of_perm (by decide) (List.Perm.refl _)

theorem keeps_connection : Keeps (Ledger.empty.acquire [.connection]) [.connection] :=
  keeps_of_perm (by decide) (List.Perm.refl _)

theorem keeps_closed : Keeps ((Ledger.empty.acquire [.connection]).release [.connection]) [] :=
  keeps_of_perm (by decide) (List.Perm.refl _)

theorem keeps_statement :
    Keeps ((Ledger.empty.acquire [.connection]).acquire [.statement]) [.connection, .statement] :=
  keeps_of_perm (by decide) (List.Perm.refl _)

/-- From the creation of the array to its deletion: the detached nodes and the
text of the reply are left. -/
theorem leaves_arrayLedger {ledger : Ledger Resource} {held : List Resource} {rows : Rows D}
    {numbers : List ℕ} (h : ledger.Leaves held) (hrows : rows.Accounted numbers) :
    (o.arrayLedger ledger rows).Leaves (held ++ (rows.detached ++ o.replyText rows)) := by
  have hcount := List.perm_iff_count.1 hrows.perm
  have hloop : (((ledger.acquire [.array]).acquire rows.created).release rows.deleted).Leaves
      (held ++ ([.array] ++ (rows.attached ++ rows.detached))) := by
    refine ((h.acquire [.array]).acquire rows.created).release_perm ?_
    refine List.perm_iff_count.2 ?_
    intro x
    have hx := hcount x
    simp only [List.count_append] at hx ⊢
    omega
  refine (hloop.acquire (o.replyText rows)).release_perm ?_
  refine List.perm_iff_count.2 ?_
  intro x
  simp only [List.count_append]
  omega

theorem nodup_acquired {base : List Resource} {rows : Rows D} {numbers : List ℕ}
    (hbase : base.Nodup) (hreply : Resource.reply ∉ base)
    (hnode : ∀ i name, Resource.node i name ∉ base) (hrows : rows.Accounted numbers) :
    (base ++ rows.created ++ o.replyText rows).Nodup := by
  have hloop : (base ++ rows.created).Nodup := by
    refine List.nodup_append.2 ⟨hbase, hrows.nodup, ?_⟩
    rintro x hx y hy rfl
    obtain ⟨i, -, name, rfl⟩ := hrows.of_row x hy
    exact hnode i name hx
  have hnew : Resource.reply ∉ base ++ rows.created := by
    intro hmem
    rcases List.mem_append.1 hmem with hmem | hmem
    · exact hreply hmem
    · obtain ⟨i, -, name, hname⟩ := hrows.of_row _ hmem
      exact absurd hname (by simp)
  rw [replyText]
  split_ifs
  · exact List.nodup_append.2 ⟨hloop, List.nodup_singleton _, fun x hx y hy => by
      rintro rfl
      exact hnew (List.mem_singleton.1 hy ▸ hx)⟩
  · rwa [List.append_nil]

/-- The array behind what has been opened, and all that is closed. -/
theorem keeps_arrayLedger {opened closed : List Resource} {rows : Rows D} {numbers : List ℕ}
    (hopened : (Resource.request :: (opened ++ [.array])).Nodup) (hreply : .reply ∉ opened)
    (hnode : ∀ i name, .node i name ∉ opened) (hclosed : opened.Perm closed)
    (hrows : rows.Accounted numbers) :
    Keeps ((o.arrayLedger ⟨opened, []⟩ rows).release closed)
      (rows.detached ++ o.replyText rows) where
  nodup := by
    show (Resource.request :: (opened ++ [.array] ++ rows.created ++ o.replyText rows)).Nodup
    have hbase := nodup_acquired (o := o) hopened (by simpa using hreply)
      (fun i name => by simpa using hnode i name) hrows
    simpa only [List.cons_append] using hbase
  leaves := by
    have hopen : (⟨opened, []⟩ : Ledger Resource).Leaves opened := List.Perm.refl opened
    exact (leaves_arrayLedger hopen hrows).release_perm (hclosed.append_right _)

/-- What `reportPothole` leaves. -/
def reportHeld (o : Outcomes) : List Resource :=
  if o.init then
    if o.realConnect then
      if o.stmt .init ∧ o.stmt .prepare ∧ o.stmt .bindParam then [.statement]
      else [.connection, .statement]
    else [.connection]
  else []

/-- The statement is never closed, and the connection is closed only at the end. -/
theorem keeps_reportPothole {pothole : Pothole D} {ledger : Ledger Resource}
    (h : o.reportPothole pothole = some ledger) : Keeps ledger o.reportHeld := by
  rw [reportPothole] at h
  rw [reportHeld]
  by_cases hinit : o.init = true
  swap
  · rw [if_neg hinit] at h ⊢
    exact Option.some.inj h ▸ keeps_empty
  rw [if_pos hinit] at h ⊢
  by_cases hconnect : o.realConnect = true
  swap
  · rw [if_neg hconnect] at h ⊢
    exact Option.some.inj h ▸ keeps_connection
  rw [if_pos hconnect] at h ⊢
  split_ifs at h with hstmt hfirst hprepare htexts hbind
  · rw [if_pos ⟨hfirst, hprepare, hbind⟩]
    exact Option.some.inj h ▸ keeps_of_perm (by decide) (List.Perm.refl _)
  · rw [if_neg fun hall => hbind hall.2.2]
    exact Option.some.inj h ▸ keeps_statement
  · rw [if_neg fun hall => hprepare hall.2.1]
    exact Option.some.inj h ▸ keeps_statement
  · rw [if_neg fun hall => hfirst hall.1]
    exact Option.some.inj h ▸ keeps_statement

section

variable (o w)

/-- What `getPotholesByRangeJson` leaves. -/
def rangeHeld (latitude longitude range : D) : List Resource :=
  if o.init ∧ o.realConnect ∧ (o.query ∧ o.storeResult) ∧ o.createArray then
    let rows := o.rangeRows w latitude longitude range
      (o.fetched (w.table.map (PotholeReport.textRow w.coordinates)))
    rows.detached ++ o.replyText rows
  else []

/-- What `getUserPotholesBy14DaysJson` leaves. -/
def userHeld (username date : Option Text) : List Resource :=
  if o.init ∧ o.realConnect then
    if (o.stmt .init ∧ o.stmt .prepare) ∧ o.stmt .bindResult ∧ o.stmt .bindParam ∧
        o.stmt .execute then
      if o.createArray then
        let rows := o.userRows w date (o.fetchedWhole (selectByUser w.table (username.getD [])))
        rows.detached ++ o.replyText rows
      else []
    else [.connection, .statement]
  else []

end

/-- The connection and the result are closed in every case. -/
theorem keeps_range (latitude longitude range : D) :
    Keeps (o.getPotholesByRangeJson w latitude longitude range).ledger
      (o.rangeHeld w latitude longitude range) := by
  rw [rangeHeld]
  rcases o.range_exits (w := w) latitude longitude range with
    ⟨hearly, h | h⟩ | ⟨⟨hinit, hconnect, hresult⟩, ⟨harray, h⟩ | ⟨harray, h⟩⟩
  · rw [h, if_neg fun hall => hearly ⟨hall.1, hall.2.1, hall.2.2.1⟩]
    exact keeps_empty
  · rw [h, if_neg fun hall => hearly ⟨hall.1, hall.2.1, hall.2.2.1⟩]
    exact keeps_closed
  · rw [h, if_neg fun hall => absurd hall.2.2.2 (by rw [harray]; decide)]
    exact keeps_of_perm (by decide) (List.Perm.swap _ _ _)
  · rw [h, if_pos ⟨hinit, hconnect, hresult, harray⟩]
    exact keeps_arrayLedger (by decide) (by decide) (by simp) (List.Perm.swap _ _ _)
      (accounted_rangeRows ..)

/-- Without a name the function gets no further than `strlen`, and to there it
does what it does for any name. -/
theorem user_of_none {date : Option Text} {r : Returned D}
    (h : o.getUserPotholesBy14DaysJson w none date = some r) :
    o.getUserPotholesBy14DaysJson w (some []) date = some r := by
  rw [getUserPotholesBy14DaysJson] at h ⊢
  by_cases hprepare : o.stmt .init = true ∧ o.stmt .prepare = true
  · simp only [if_pos hprepare] at h
    split_ifs at h ⊢
    · exact h
    · exact h
  · simpa only [if_neg hprepare] using h

/-- The connection and the statement are closed but on the returns that follow
`mysql_stmt_errno`. -/
theorem keeps_user {username date : Option Text} {r : Returned D}
    (h : o.getUserPotholesBy14DaysJson w username date = some r) :
    Keeps r.ledger (o.userHeld w username date) := by
  have hsome : o.getUserPotholesBy14DaysJson w (some (username.getD [])) date = some r := by
    cases username with
    | none => exact user_of_none h
    | some username => exact h
  rw [userHeld]
  rcases o.user_exits (w := w) (username.getD []) date with
    ⟨hearly, h' | h'⟩ | ⟨hconnect, ⟨-, h'⟩ | ⟨-, herror, h'⟩ | ⟨-, hall, hloop⟩⟩
  · rw [if_neg hearly, ← Option.some.inj (h'.symm.trans hsome)]
    exact keeps_empty
  · rw [if_neg hearly, ← Option.some.inj (h'.symm.trans hsome)]
    exact keeps_closed
  · cases h'.symm.trans hsome
  · rw [if_pos hconnect, if_neg (mt forall_stmtCall_iff.2 herror),
      ← Option.some.inj (h'.symm.trans hsome)]
    exact keeps_statement
  rw [if_pos hconnect, if_pos (forall_stmtCall_iff.1 hall)]
  rcases hloop with ⟨harray, h'⟩ | ⟨harray, h'⟩
  · rw [if_neg (by rw [harray]; decide), ← Option.some.inj (h'.symm.trans hsome)]
    exact keeps_of_perm (by decide) (List.Perm.swap _ _ _)
  · rw [if_pos harray]
    have hr := h'.symm.trans hsome
    split_ifs at hr
    rw [← Option.some.inj hr]
    exact keeps_arrayLedger (by decide) (by decide) (by simp) (List.Perm.swap _ _ _)
      (accounted_userRows ..)

/-! ## The run -/

/-- What the function for a call leaves. -/
def callHeld (o : Outcomes) (w : Surroundings D) : DbCall D → List Resource
  | .reportPothole _ => o.reportHeld
  | .getPotholesByRangeJson latitude longitude range => o.rangeHeld w latitude longitude range
  | .getUserPotholesBy14DaysJson username date => o.userHeld w username date

/-- Nothing is released with the sending of a reply. -/
theorem answer_ledger {call : DbCall D} {r : Returned D} {work : Work D}
    (h : o.answer w call r = some work) : work.ledger = r.ledger := by
  rw [answer] at h
  split at h
  · exact Option.some.inj h ▸ rfl
  · cases h
  · simp only at h
    split_ifs at h
    exact Option.some.inj h ▸ rfl

theorem keeps_perform {call : DbCall D} {work : Work D} (h : o.perform w call = some work) :
    Keeps work.ledger (o.callHeld w call) := by
  cases call with
  | reportPothole pothole =>
      obtain ⟨ledger, hledger, rfl⟩ := Option.map_eq_some_iff.1 h
      exact keeps_reportPothole hledger
  | getPotholesByRangeJson latitude longitude range =>
      rw [answer_ledger h]
      exact keeps_range ..
  | getUserPotholesBy14DaysJson username date =>
      obtain ⟨r, hr, hanswer⟩ := Option.bind_eq_some_iff.1 h
      rw [answer_ledger hanswer]
      exact keeps_user hr

/-- What a run leaves: the tree of the request, and what the function leaves. -/
def runHeld (o : Outcomes) (w : Surroundings D) : Option (CJson D) → List Resource
  | none => []
  | some json => .request :: (requestOf w.doubles json).elim [] (o.callHeld w)

/-- The account of a run: what it acquires it acquires once, and releases once,
but for the resources that it leaves. -/
theorem leaves_doWork {buffer beyond : Text} {received : Received} {work : Work D}
    (h : o.doWork w buffer beyond received = some work) :
    work.ledger.acquired.Nodup ∧
      work.ledger.Leaves (o.runHeld w (o.parsed w buffer beyond received)) := by
  have hrequest : (Ledger.empty.acquire [Resource.request]).Leaves [.request] :=
    List.Perm.refl _
  rw [doWork] at h
  cases hjson : o.parsed w buffer beyond received with
  | none =>
      simp only [hjson, Option.some.injEq] at h
      rw [← h]
      exact ⟨List.nodup_nil, Ledger.leaves_empty⟩
  | some json =>
      simp only [hjson] at h
      rw [runHeld]
      cases hcall : requestOf w.doubles json with
      | none =>
          simp only [hcall, Option.some.injEq] at h
          rw [← h]
          exact ⟨List.nodup_singleton _, hrequest⟩
      | some call =>
          simp only [hcall, Option.map_eq_some_iff] at h
          obtain ⟨work', hperform, rfl⟩ := h
          have hkeeps := keeps_perform hperform
          exact ⟨hkeeps.nodup, hrequest.append hkeeps.leaves⟩

/-- Nothing is released twice, and nothing that has not been acquired. -/
theorem released_once {buffer beyond : Text} {received : Received} {work : Work D}
    (h : o.doWork w buffer beyond received = some work) :
    work.ledger.released.Nodup ∧ work.ledger.released ⊆ work.ledger.acquired := by
  obtain ⟨hnodup, hleaves⟩ := leaves_doWork h
  exact ⟨hleaves.nodup_released hnodup, hleaves.released_subset⟩

theorem runHeld_eq_nil_iff {json : Option (CJson D)} : o.runHeld w json = [] ↔ json = none := by
  cases json <;> simp [runHeld]

theorem parsed_eq_none_iff {buffer beyond : Text} {received : Received} :
    o.parsed w buffer beyond received = none ↔
      (received.last = .wouldBlock → o.parse = true →
        cJSON_Parse w.doubles (parsedText buffer beyond received) = none) := by
  rw [parsed, parsedText]
  split_ifs with h
  · exact ⟨fun hnone _ _ => hnone, fun hall => hall h.1 h.2⟩
  · exact iff_of_true rfl fun hlast hparse => absurd ⟨hlast, hparse⟩ h

/-- **What is acquired is released.**  A run that returns releases everything
that it has acquired, and once, exactly when it comes to no tree: the client has
closed, or `recv` has failed, or the text is not parsed. -/
theorem doWork_settled_iff {buffer beyond : Text} {received : Received} {work : Work D}
    (h : o.doWork w buffer beyond received = some work) :
    work.ledger.Settled ↔
      (received.last = .wouldBlock → o.parse = true →
        cJSON_Parse w.doubles (parsedText buffer beyond received) = none) := by
  obtain ⟨hnodup, hleaves⟩ := leaves_doWork h
  rw [hleaves.settled_iff hnodup, runHeld_eq_nil_iff, parsed_eq_none_iff]

theorem settled_of_closed : ∃ (buffer : Text) (work : Work Int),
    allSucceed.doWork leapDayReport buffer [] (lastReport.delivery.received .closed) =
      some work ∧ work.ledger.Settled := by
  have hrun : allSucceed.doWork leapDayReport (List.replicate bufferSize '\x00') []
      (lastReport.delivery.received .closed) = some ⟨⟨[], [], true⟩, .empty⟩ := rfl
  exact ⟨_, _, hrun, (doWork_settled_iff hrun).2 fun hlast => by cases hlast⟩

/-- A report, with every call succeeding: the tree of the request and the
statement are left. -/
theorem not_settled_of_lastReport : ∃ (buffer : Text) (work : Work Int),
    buffer.length = bufferSize ∧
    allSucceed.doWork leapDayReport buffer [] (lastReport.delivery.received .wouldBlock) =
      some work ∧
    work.ledger = ⟨[.request, .connection, .statement], [.connection]⟩ ∧
    ¬ work.ledger.Settled := by
  obtain ⟨json, hjson, hcall⟩ := Option.bind_eq_some_iff.1 plainReport.reads
  have hparsed : allSucceed.parsed leapDayReport (List.replicate bufferSize '\x00') []
      (lastReport.delivery.received .wouldBlock) = some json := by
    have htext := lastReport.delivery.parsedText_zeros [] .wouldBlock
    rw [parsedText, RequestText.delivery, ChunkedMessage.bytes_single] at htext
    rw [parsed, if_pos ⟨rfl, rfl⟩, RequestText.delivery, htext]
    exact hjson
  have hrun : allSucceed.doWork leapDayReport (List.replicate bufferSize '\x00') []
      (lastReport.delivery.received .wouldBlock) =
      some ⟨⟨[.reportPothole plainReport.pothole], [], false⟩,
        ⟨[.request, .connection, .statement], [.connection]⟩⟩ := by
    have hcall' : requestOf leapDayReport.doubles json = _ := hcall
    rw [doWork, hparsed]
    simp only [hcall']
    rfl
  exact ⟨_, _, List.length_replicate .., hrun, rfl, by decide⟩

end Outcomes

end PotHub.Server
