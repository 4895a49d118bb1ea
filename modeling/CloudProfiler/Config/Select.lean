import CloudProfiler.Config

/-!
# CloudProfiler.Config.Select

Which entry a request is answered with: the selection of a table
(`setConfigTable`, `setDefaultConfigTable`) and the lookup in it.

`none` is a NULL `cf_tbl`; an error is the text the server prints before it
exits.

* `setConfigTable_eq`, `setDefaultConfigTable_cons` — the table with the name,
  if there is exactly one;
* `FirstAccepting` — the entry that shadows all others;
* `first_match_lookup` — both together.
-/

namespace CloudProfiler

/-! ## selecting a table -/

/-- `conf_server_max_param`. -/
def confServerMaxParam : Nat := 7

/-- `struct conf_table`. -/
structure ConfTable where
  tableName : String
  entries : List ConfEntry

/-- Two tables have the name. -/
def duplicatedTableName (cnf : String) : String :=
  "ERROR: duplicated table name \"" ++ cnf ++ "\" in file default_conf.h"

/-- No table has the name. -/
def invalidTableName (cnf : String) : String :=
  "ERROR: invalid configuration table name \"" ++ cnf ++ "\""

/-- There is no table. -/
def emptyConfigurationTable : String := "ERROR: empty configuration table"

/-- The loop of `setConfigTable`; `found` is what it has set `cf_tbl` to. -/
def setConfigTableFrom (cnf : String) (found : Option (List ConfEntry)) :
    List ConfTable → Except String (Option (List ConfEntry))
  | [] => .ok found
  | it :: rest =>
      if it.tableName = cnf then
        if found.isSome then .error (duplicatedTableName cnf)
        else setConfigTableFrom cnf (some it.entries) rest
      else setConfigTableFrom cnf found rest

/-- `setConfigTable`: the new value of `cf_tbl`. -/
def setConfigTable (confTables : List ConfTable) (cnf : String) :
    Except String (List ConfEntry) :=
  match setConfigTableFrom cnf none confTables with
  | .error e => .error e
  | .ok none => .error (invalidTableName cnf)
  | .ok (some tbl) => .ok tbl

/-- `setDefaultConfigTable`. -/
def setDefaultConfigTable : List ConfTable → Except String (List ConfEntry)
  | [] => .error emptyConfigurationTable
  | t :: rest =>
      if rest.any fun u => u.tableName = t.tableName then
        .error (duplicatedTableName t.tableName)
      else
        .ok t.entries

/-- `lookupConfig`, which selects the default table if none is selected: the
value of `cf_tbl` and the answer. -/
def lookupConfigIn (confTables : List ConfTable) (cfTbl : Option (List ConfEntry))
    (info : FoxStartInfo) (request : ConfReqMsg) (reply : ConfReplyMsg) :
    Except String (List ConfEntry × Answer) :=
  match cfTbl with
  | some tbl => .ok (tbl, lookupConfig tbl info request reply)
  | none =>
      match setDefaultConfigTable confTables with
      | .error e => .error e
      | .ok tbl => .ok (tbl, lookupConfig tbl info request reply)

section Select

variable {confTables : List ConfTable} {cnf : String}

/-- The tables of a name. -/
def named (cnf : String) (confTables : List ConfTable) : List ConfTable :=
  confTables.filter fun t => t.tableName = cnf

/-- After a first table with the name there must be no second. -/
theorem setConfigTableFrom_some (tbl : List ConfEntry) :
    setConfigTableFrom cnf (some tbl) confTables =
      if named cnf confTables = [] then .ok (some tbl) else .error (duplicatedTableName cnf) := by
  induction confTables with
  | nil => rfl
  | cons it rest ih =>
      by_cases hit : it.tableName = cnf
      · simp [setConfigTableFrom, named, hit]
      · rw [setConfigTableFrom, if_neg hit, ih]
        simp [named, hit]

/-- `setConfigTable` finds the one table with the name. -/
theorem setConfigTable_eq : setConfigTable confTables cnf =
    match named cnf confTables with
    | [] => .error (invalidTableName cnf)
    | [t] => .ok t.entries
    | _ => .error (duplicatedTableName cnf) := by
  have hloop : setConfigTableFrom cnf none confTables =
      match named cnf confTables with
      | [] => .ok none
      | [t] => .ok (some t.entries)
      | _ => .error (duplicatedTableName cnf) := by
    induction confTables with
    | nil => rfl
    | cons it rest ih =>
        by_cases hit : it.tableName = cnf
        · have hnamed : named cnf (it :: rest) = it :: named cnf rest := by simp [named, hit]
          rw [setConfigTableFrom, if_pos hit, hnamed, setConfigTableFrom_some]
          cases named cnf rest <;> rfl
        · have hnamed : named cnf (it :: rest) = named cnf rest := by simp [named, hit]
          rw [setConfigTableFrom, if_neg hit, ih, hnamed]
  rw [setConfigTable, hloop]
  cases named cnf confTables with
  | nil => rfl
  | cons t rest => cases rest <;> rfl

/-- The default table is the one with the name of the first. -/
theorem setDefaultConfigTable_cons (t : ConfTable) (rest : List ConfTable) :
    setDefaultConfigTable (t :: rest) = setConfigTable (t :: rest) t.tableName := by
  have hnamed : named t.tableName (t :: rest) = t :: named t.tableName rest := by simp [named]
  have hany : (rest.any fun u => u.tableName = t.tableName) = true ↔
      named t.tableName rest ≠ [] := by
    simp [named]
  rw [setConfigTable_eq, hnamed, setDefaultConfigTable]
  cases hrest : named t.tableName rest with
  | nil => rw [if_neg (by rw [hany, hrest]; simp)]
  | cons u us => rw [if_pos (by rw [hany, hrest]; simp)]

theorem setConfigTable_error_iff :
    (∃ e, setConfigTable confTables cnf = .error e) ↔ (named cnf confTables).length ≠ 1 := by
  rw [setConfigTable_eq]
  cases named cnf confTables with
  | nil => simp
  | cons t rest => cases rest <;> simp

theorem setConfigTable_ok {tbl : List ConfEntry} (h : setConfigTable confTables cnf = .ok tbl) :
    ∃ t ∈ confTables, t.tableName = cnf ∧ tbl = t.entries := by
  rw [setConfigTable_eq] at h
  split at h
  · cases h
  · next t ht =>
    cases h
    have hmem : t ∈ named cnf confTables := by simp [ht]
    obtain ⟨hmem, hname⟩ := List.mem_filter.mp hmem
    exact ⟨t, hmem, of_decide_eq_true hname, rfl⟩
  · cases h

end Select

/-! ## the first entry that matches -/

/-- A pattern is a wildcard or the field itself. -/
def Pattern (str expr : String) : Prop := expr = ".*" ∨ str = expr

/-- All five patterns of the entry match; numbers are compared as decimal
text. -/
structure ConfEntry.Accepts (it : ConfEntry) (request : ConfReqMsg) : Prop where
  chName : Pattern request.chName it.chName
  chDottedQuad : Pattern request.chDottedQuad it.chDottedQuad
  chPid : Pattern (toString request.chPid.toNat) it.chPid
  chTid : Pattern (toString request.chTid.toNat) it.chTid
  chNr : Pattern (toString request.chNr.toInt) it.chNr

/-- Entry number `i` is the first that accepts the request. -/
structure FirstAccepting (tbl : List ConfEntry) (request : ConfReqMsg) (i : Nat)
    (it : ConfEntry) : Prop where
  entry : tbl[i]? = some it
  accepts : it.Accepts request
  first : ∀ j < i, ∀ it', tbl[j]? = some it' → ¬ it'.Accepts request

/-- The answer carries the configuration of entry number `i`. -/
structure Answer.Carries (a : Answer) (it : ConfEntry) (i : Nat) : Prop where
  ret : a.ret = true
  lineNr : a.lineNr = some i
  err : a.reply.err = confLookupSuccess
  hType : a.reply.hType = some it.hType
  logF : a.reply.logF = some it.logF
  nrParameters : a.reply.nrParameters = it.nrParameters
  parValue : ∀ p < it.nrParameters.toNat, a.reply.parValue p = it.parValue p

section FirstMatch

variable {tbl : List ConfEntry} {info : FoxStartInfo} {request : ConfReqMsg}
  {reply : ConfReplyMsg} {it : ConfEntry} {i : Nat}

theorem matchExpr_iff (str expr : String) : matchExpr str expr = true ↔ Pattern str expr := by
  simp [matchExpr, Pattern]

theorem matches_iff : it.matches request = true ↔ it.Accepts request := by
  simp only [ConfEntry.matches, Bool.and_eq_true, matchExpr_iff]
  constructor
  · rintro ⟨⟨⟨⟨h1, h2⟩, h3⟩, h4⟩, h5⟩
    exact ⟨h1, h2, h3, h4, h5⟩
  · rintro ⟨h1, h2, h3, h4, h5⟩
    exact ⟨⟨⟨⟨h1, h2⟩, h3⟩, h4⟩, h5⟩

/-- Only one entry is the first. -/
theorem FirstAccepting.unique {i' : Nat} {it' : ConfEntry} (h : FirstAccepting tbl request i it)
    (h' : FirstAccepting tbl request i' it') : i = i' ∧ it = it' := by
  have hi : i = i' := by
    obtain hlt | heq | hlt := Nat.lt_trichotomy i i'
    · exact absurd h.accepts (h'.first i hlt it h.entry)
    · exact heq
    · exact absurd h'.accepts (h.first i' hlt it' h'.entry)
  subst hi
  exact ⟨rfl, Option.some.inj (h.entry.symm.trans h'.entry)⟩

theorem FirstAccepting.cons {e : ConfEntry} (h : FirstAccepting tbl request i it)
    (he : ¬ e.Accepts request) : FirstAccepting (e :: tbl) request (i + 1) it := by
  refine ⟨h.entry, h.accepts, fun j hj it' hit' => ?_⟩
  cases j with
  | zero =>
      obtain rfl := Option.some.inj hit'
      exact he
  | succ j => exact h.first j (by omega) it' hit'

/-- **The loop of `lookupConfig`** serves the first accepting entry and has
counted the entries in front of it, or finds none. -/
theorem lookupFrom_cases (tbl : List ConfEntry) (line : Nat) :
    (∃ i it, FirstAccepting tbl request i it ∧
      lookupFrom info request reply tbl line = serveEntry info request reply it (line + i)) ∨
    ((∀ it ∈ tbl, ¬ it.Accepts request) ∧ lookupFrom info request reply tbl line =
      ⟨info, { reply with err := errConfNotFound }, none, false⟩) := by
  induction tbl generalizing line with
  | nil => exact .inr ⟨fun it hit => absurd hit List.not_mem_nil, rfl⟩
  | cons e tbl ih =>
      by_cases he : e.matches request = true
      · refine .inl ⟨0, e, ⟨rfl, matches_iff.mp he, fun j hj => absurd hj (Nat.not_lt_zero j)⟩, ?_⟩
        rw [lookupFrom, if_pos he, Nat.add_zero]
      · have hno : ¬ e.Accepts request := fun h => he (matches_iff.mpr h)
        rw [lookupFrom, if_neg he]
        obtain ⟨i, it, hfirst, heq⟩ | ⟨hnone, heq⟩ := ih (line + 1)
        · refine .inl ⟨i + 1, it, hfirst.cons hno, ?_⟩
          rw [heq, Nat.add_assoc, Nat.add_comm 1]
        · exact .inr ⟨List.forall_mem_cons.mpr ⟨hno, hnone⟩, heq⟩

/-- The first accepting entry is served, and its number is the line. -/
theorem lookupConfig_of_first (h : FirstAccepting tbl request i it) :
    lookupConfig tbl info request reply = serveEntry info request reply it i := by
  rcases lookupFrom_cases tbl 0 with
    ⟨i', it', h', heq⟩ | ⟨hnone, -⟩
  · obtain ⟨rfl, rfl⟩ := h.unique h'
    rw [lookupConfig, heq, Nat.zero_add]
  · exact absurd h.accepts (hnone it (List.mem_of_getElem? h.entry))

/-- An entry that is served is found, whatever else the reply says. -/
theorem serveEntry_err : (serveEntry info request reply it i).reply.err ≠ errConfNotFound := by
  have hcodes : (serveEntry info request reply it i).reply.err = confLookupSuccess ∨
      (serveEntry info request reply it i).reply.err = errFoxMultipeStartNode ∨
      (serveEntry info request reply it i).reply.err = errFoxStartNotSet := by
    unfold serveEntry
    split
    · cases hset : info.isSet <;> simp [makeFoxStartReply, hset]
    · cases hset : info.isSet <;> simp [makeFoxEndReply, hset]
    · exact .inl rfl
  obtain h | h | h := hcodes <;> rw [h] <;> decide

theorem serveEntry_carries (hs : it.hType ≠ .foxStart) (he : it.hType ≠ .foxEnd) :
    (serveEntry info request reply it i).Carries it i := by
  have hserve : serveEntry info request reply it i = ⟨info, { reply with
        err := confLookupSuccess
        hType := some it.hType
        logF := some it.logF
        nrParameters := it.nrParameters
        parValue := copyParams it.nrParameters.toNat it.parValue reply.parValue },
        some i, true⟩ := by
    unfold serveEntry
    split
    · contradiction
    · contradiction
    · rfl
  rw [hserve]
  exact ⟨rfl, rfl, rfl, rfl, rfl, rfl, fun p hp => if_pos hp⟩

/-- `ERR_CONF_NOT_FOUND` is reported if no entry accepts the request, and only
then. -/
theorem lookupConfig_not_found_iff :
    (lookupConfig tbl info request reply).reply.err = errConfNotFound ↔
      ∀ it ∈ tbl, ¬ it.Accepts request := by
  rcases lookupFrom_cases tbl 0 with
    ⟨i, it, h, heq⟩ | ⟨hnone, heq⟩
  · rw [lookupConfig, heq]
    exact ⟨fun herr => absurd herr serveEntry_err,
      fun hnone => absurd h.accepts (hnone it (List.mem_of_getElem? h.entry))⟩
  · rw [lookupConfig, heq]
    exact ⟨fun _ => hnone, fun _ => rfl⟩

end FirstMatch

/-- `cf_tbl` is `tbl` when a request is looked up. -/
def InUse (confTables : List ConfTable) (cfTbl : Option (List ConfEntry))
    (tbl : List ConfEntry) : Prop :=
  cfTbl = some tbl ∨ cfTbl = none ∧ setDefaultConfigTable confTables = .ok tbl

/-- **First-match lookup**, for any tables and any request.

* `setConfigTable` selects the table with the given name and
  `setDefaultConfigTable` the first one, and the server exits exactly when
  there is no such table or there are several of that name.
* A lookup in the table in use serves the first entry that accepts the
  request; unless this is an entry for a fox handler, the reply carries its
  configuration and its number is the line.
* `ERR_CONF_NOT_FOUND` is reported exactly when no entry accepts the
  request. -/
theorem first_match_lookup (confTables : List ConfTable) :
    (∀ cnf, ((∃ e, setConfigTable confTables cnf = .error e) ↔
        (named cnf confTables).length ≠ 1) ∧
      ∀ tbl, setConfigTable confTables cnf = .ok tbl →
        ∃ t ∈ confTables, t.tableName = cnf ∧ tbl = t.entries) ∧
    (((∃ e, setDefaultConfigTable confTables = .error e) ↔
        ∀ t ∈ confTables.head?, (named t.tableName confTables).length ≠ 1) ∧
      ∀ tbl, setDefaultConfigTable confTables = .ok tbl →
        ∃ t ∈ confTables.head?, tbl = t.entries) ∧
    (∀ cfTbl tbl info request reply, InUse confTables cfTbl tbl →
      ∃ a, lookupConfigIn confTables cfTbl info request reply = .ok (tbl, a) ∧
        (∀ i it, FirstAccepting tbl request i it →
          a = serveEntry info request reply it i ∧
          (it.hType ≠ .foxStart → it.hType ≠ .foxEnd →
            it.nrParameters.toNat ≤ confServerMaxParam → a.Carries it i)) ∧
        (a.reply.err = errConfNotFound ↔ ∀ it ∈ tbl, ¬ it.Accepts request)) := by
  refine ⟨fun cnf => ⟨setConfigTable_error_iff, fun tbl => setConfigTable_ok⟩, ?_, ?_⟩
  · cases confTables with
    | nil =>
        refine ⟨⟨fun _ t ht => ?_, fun _ => ⟨emptyConfigurationTable, rfl⟩⟩, fun tbl h => ?_⟩
        · cases ht
        · cases h
    | cons t rest =>
        rw [setDefaultConfigTable_cons, setConfigTable_error_iff]
        refine ⟨⟨fun h u hu => ?_, fun h => h t rfl⟩, fun tbl h => ⟨t, rfl, ?_⟩⟩
        · obtain rfl := Option.some.inj hu
          exact h
        · rw [← setDefaultConfigTable_cons, setDefaultConfigTable] at h
          split at h
          · cases h
          · cases h
            rfl
  · intro cfTbl tbl info request reply huse
    refine ⟨lookupConfig tbl info request reply, ?_, fun i it h => ?_, lookupConfig_not_found_iff⟩
    · obtain rfl | ⟨rfl, hdef⟩ := huse
      · rfl
      · rw [lookupConfigIn, hdef]
    · rw [lookupConfig_of_first h]
      exact ⟨rfl, fun hs he _ => serveEntry_carries hs he⟩

/-- A table in which a specific entry and the last one are shadowed for some
requests. -/
def shadowing : List ConfEntry :=
  [⟨"test_ch_1", "1.1.1.1", ".*", ".*", ".*", .nullh, .ascii, 0, fun _ => 0⟩,
    ⟨"test_ch_1", ".*", ".*", ".*", ".*", .identity, .ascii, 1, fun _ => 22⟩,
    ⟨".*", ".*", ".*", ".*", ".*", .nullh, .ascii, 0, fun _ => 0⟩]

/-- A channel of that name on another host gets the second entry. -/
theorem first_match_lookup_shadowing :
    ∃ a, lookupConfigIn [⟨"test_2", shadowing⟩] none .init
        ⟨"test_ch_1", "10.0.0.1", 7, 7, 0, 0, fun _ => 0⟩ ⟨0, none, none, 0, fun _ => 0⟩ =
          .ok (shadowing, a) ∧
      a.Carries ⟨"test_ch_1", ".*", ".*", ".*", ".*", .identity, .ascii, 1, fun _ => 22⟩ 1 := by
  have hfirst : FirstAccepting shadowing ⟨"test_ch_1", "10.0.0.1", 7, 7, 0, 0, fun _ => 0⟩ 1
      ⟨"test_ch_1", ".*", ".*", ".*", ".*", .identity, .ascii, 1, fun _ => 22⟩ := by
    refine ⟨rfl, ⟨.inr rfl, .inl rfl, .inl rfl, .inl rfl, .inl rfl⟩, fun j hj it' hit' h => ?_⟩
    obtain rfl : j = 0 := by omega
    obtain rfl := Option.some.inj hit'
    obtain h | h := h.chDottedQuad
    · exact absurd h (by decide)
    · exact absurd h (by decide)
  obtain ⟨a, ha, hserve, -⟩ := (first_match_lookup [⟨"test_2", shadowing⟩]).2.2 none shadowing .init
    ⟨"test_ch_1", "10.0.0.1", 7, 7, 0, 0, fun _ => 0⟩ ⟨0, none, none, 0, fun _ => 0⟩ (.inr ⟨rfl, rfl⟩)
  exact ⟨a, ha, (hserve 1 _ hfirst).2 (by decide) (by decide) (by decide)⟩

end CloudProfiler
