import CallCenter.Foundation.Outcomes
import CallCenter.Verified.IvrNavigation
import CallCenter.Verified.JsonAccess

/-!
# Loading the IVR tables

What `Initivrflow` does with rows in any order and with any text in `user_word`.  The grouping loop
always reads behind the last row; where that read counts as another company, what survives of a
company is its last run of rows.
-/

namespace CallCenter.Verified.IvrLoading

open Std (ExtTreeMap)
open CallCenter.Foundation CallCenter.Model

/-! ## The reads of the grouping loop -/

/-- The grouping loop reads rows only, ends, and stores every row once. -/
def StaysInside (nodetable : List IvrNode) : Prop :=
  ∃ fuel grouping, Grouping.run fuel nodetable {} = some (.ok (), grouping) ∧ grouping.stored = nodetable

/-- The inner loop stores the run of rows in front, and reads on behind it. -/
theorem storeRun_eq (ite : IvrNode) (rows : List IvrNode) (grouping : Grouping) :
    grouping.storeRun ite rows =
      (match rows.dropWhile fun sec => sec.companyId == ite.companyId with
        | [] => .error .pastEnd
        | sec :: rest => .ok (sec :: rest),
        { grouping with
          oneNodeTable := (rows.takeWhile fun sec => sec.companyId == ite.companyId).foldl
            (fun table sec => table.insert sec.nodeId sec) grouping.oneNodeTable
          stored := grouping.stored ++ rows.takeWhile fun sec => sec.companyId == ite.companyId }) := by
  induction rows generalizing grouping with
  | nil => simp [Grouping.storeRun]
  | cons row rest inductionHypothesis =>
    by_cases same : row.companyId == ite.companyId
    · rw [Grouping.storeRun, if_pos same, inductionHypothesis]
      simp only [List.takeWhile_cons, List.dropWhile_cons, same, if_true, List.foldl_cons, List.append_assoc,
        List.singleton_append]
    · rw [Grouping.storeRun, if_neg same]
      simp only [List.takeWhile_cons, List.dropWhile_cons, same, Bool.false_eq_true, if_false, List.foldl_nil,
        List.append_nil]

/-- One pass of the outer loop takes a run off the front. -/
theorem run_cons (fuel : Nat) (ite : IvrNode) (rest : List IvrNode) (grouping : Grouping) :
    let same := fun sec : IvrNode => sec.companyId == ite.companyId
    let table := oneNodeTable ite.companyId ((ite :: rest).takeWhile same)
    Grouping.run (fuel + 1) (ite :: rest) grouping =
      match (ite :: rest).dropWhile same with
      | [] => some (.error .pastEnd,
          { grouping with
            oneNodeTable := table, stored := grouping.stored ++ (ite :: rest).takeWhile same })
      | sec :: behind => Grouping.run fuel (sec :: behind)
          { ivrNodetable := grouping.ivrNodetable.insert ite.companyId table
            oneNodeTable := table
            stored := grouping.stored ++ (ite :: rest).takeWhile same } := by
  intro same table
  rw [Grouping.run, storeRun_eq]
  cases behind : (ite :: rest).dropWhile same with
  | nil =>
    simp only [same] at behind
    rfl
  | cons sec behind =>
    simp only [same] at behind
    rfl

/-- However far it gets, on rows the loop does not end well. -/
theorem run_not_ok {fuel : Nat} {rows : List IvrNode} (nonempty : rows ≠ []) (grouping final : Grouping) :
    Grouping.run fuel rows grouping ≠ some (.ok (), final) := by
  induction fuel generalizing rows grouping with
  | zero =>
    cases rows with
    | nil => exact absurd rfl nonempty
    | cons ite rest => simp [Grouping.run]
  | succ fuel inductionHypothesis =>
    cases rows with
    | nil => exact absurd rfl nonempty
    | cons ite rest =>
      rw [run_cons]
      split
      · simp
      · exact inductionHypothesis (by simp) _

theorem length_behind {fuel : Nat} {ite : IvrNode} {rest : List IvrNode}
    (enough : (ite :: rest).length ≤ fuel + 1) :
    ((ite :: rest).dropWhile fun sec => sec.companyId == ite.companyId).length ≤ fuel := by
  rw [List.dropWhile_cons_of_pos (by simp)]
  have shorter := (List.dropWhile_sublist (l := rest) fun sec => sec.companyId == ite.companyId).length_le
  exact shorter.trans (Nat.le_of_succ_le_succ enough)

/-- On rows the loop stores every row once and then reads behind the last.  The tables it would leave
are those `groupRows` computes. -/
theorem run_reads_past_end {fuel : Nat} {rows : List IvrNode} (enough : rows.length ≤ fuel) {last : IvrNode}
    (isLast : rows.getLast? = some last) (grouping : Grouping) :
    ∃ final, Grouping.run fuel rows grouping = some (.error .pastEnd, final) ∧
      final.stored = grouping.stored ++ rows ∧
      groupRows fuel rows grouping.ivrNodetable =
        final.ivrNodetable.insert last.companyId final.oneNodeTable := by
  induction fuel generalizing rows grouping with
  | zero =>
    have none : rows = [] := List.length_eq_zero_iff.mp (by omega)
    rw [none] at isLast
    cases isLast
  | succ fuel inductionHypothesis =>
    cases rows with
    | nil => cases isLast
    | cons ite rest =>
      rw [run_cons, groupRows]
      have whole := @List.takeWhile_append_dropWhile _
          (fun sec : IvrNode => sec.companyId == ite.companyId) (ite :: rest)
      cases behind : (ite :: rest).dropWhile fun sec => sec.companyId == ite.companyId with
      | nil =>
        -- The last run: its guard reads behind it.
        rw [behind, List.append_nil] at whole
        have sameCompany : last.companyId = ite.companyId := by
          have inRun : last ∈ (ite :: rest).takeWhile fun sec => sec.companyId == ite.companyId := by
            rw [whole]
            exact List.mem_of_getLast? isLast
          simpa using List.mem_takeWhile_imp inRun
        refine ⟨_, rfl, by rw [whole], ?_⟩
        rw [sameCompany]
        cases fuel <;> rfl
      | cons sec others =>
        have shorter : (sec :: others).length ≤ fuel := behind ▸ length_behind enough
        have sameLast : (sec :: others).getLast? = some last := by
          rw [← isLast, ← whole, behind, List.getLast?_append_of_ne_nil _ (by simp)]
        obtain ⟨final, ends, stored, tables⟩ := inductionHypothesis shorter sameLast
          { ivrNodetable := grouping.ivrNodetable.insert ite.companyId
              (oneNodeTable ite.companyId ((ite :: rest).takeWhile fun sec => sec.companyId == ite.companyId))
            oneNodeTable := oneNodeTable ite.companyId
              ((ite :: rest).takeWhile fun sec => sec.companyId == ite.companyId)
            stored := grouping.stored ++ (ite :: rest).takeWhile fun sec => sec.companyId == ite.companyId }
        refine ⟨final, ends, ?_, tables⟩
        rw [stored, List.append_assoc, ← behind, whole]

theorem staysInside_iff (nodetable : List IvrNode) : StaysInside nodetable ↔ nodetable = [] := by
  constructor
  · rintro ⟨fuel, grouping, ends, _⟩
    by_contra nonempty
    exact run_not_ok nonempty _ _ ends
  · rintro rfl
    exact ⟨0, {}, rfl, rfl⟩

/-- One row: the guard of the inner loop reads the row behind it. -/
theorem single_row_reads_past_end : ¬ StaysInside [{ companyId := 1, nodeId := 1 }] := by
  rintro ⟨fuel, grouping, ends, _⟩
  cases fuel with
  | zero => cases ends
  | succ fuel => cases ends

/-! ## What survives of a company -/

/-- The last run of rows of a company. -/
def lastRun (company : Int) (rows : List IvrNode) : List IvrNode :=
  (rows.rdropWhile fun row => row.companyId != company).rtakeWhile fun row => row.companyId == company

theorem company_of_mem_lastRun {company : Int} {rows : List IvrNode} {row : IvrNode}
    (member : row ∈ lastRun company rows) : row ∈ rows ∧ row.companyId = company := by
  have inRun := List.mem_rtakeWhile_imp member
  refine ⟨?_, by simpa using inRun⟩
  have left := (List.rtakeWhile_suffix (fun row : IvrNode => row.companyId == company) _).subset member
  exact (List.rdropWhile_prefix (fun row : IvrNode => row.companyId != company) rows).subset left

/-- A run whose company does not come back is the last run of its company. -/
theorem lastRun_run {company : Int} {run behind : List IvrNode}
    (isRun : ∀ row ∈ run, row.companyId = company) (gone : ∀ row ∈ behind, row.companyId ≠ company) :
    lastRun company (run ++ behind) = run := by
  have dropped : (run ++ behind).rdropWhile (fun row => row.companyId != company) = run := by
    have others : ∀ row ∈ behind.reverse, (row.companyId != company) = true := by
      intro row member
      simpa using gone row (List.mem_reverse.mp member)
    rw [List.rdropWhile, List.reverse_append, List.dropWhile_append_of_pos others]
    refine (List.rdropWhile_eq_self_iff
      (p := fun row : IvrNode => row.companyId != company)).mpr fun isNonempty => ?_
    simpa using isRun _ (List.getLast_mem isNonempty)
  rw [lastRun, dropped, List.rtakeWhile_eq_self_iff]
  intro row member
  simpa using isRun row member

/-- In front of rows of the company that start with another run, a run changes nothing. -/
theorem lastRun_behind {company first : Int} {run behind : List IvrNode}
    (isRun : ∀ row ∈ run, row.companyId = first)
    (other : ∀ row, behind.head? = some row → row.companyId ≠ first)
    (comesBack : ∃ row ∈ behind, row.companyId = company) :
    lastRun company (run ++ behind) = lastRun company behind := by
  obtain ⟨row, member, isRow⟩ := comesBack
  have notAll : ((behind.reverse).dropWhile fun row => row.companyId != company) ≠ [] := by
    rw [ne_eq, List.dropWhile_eq_nil_iff]
    intro all
    have differs := all row (List.mem_reverse.mpr member)
    simp [isRow] at differs
  have dropped : (run ++ behind).rdropWhile (fun row => row.companyId != company) =
      run ++ behind.rdropWhile fun row => row.companyId != company := by
    rw [List.rdropWhile, List.reverse_append, List.dropWhile_append, if_neg (by simpa using notAll),
      List.reverse_append, List.reverse_reverse, List.rdropWhile]
  rw [lastRun, dropped, lastRun, List.rtakeWhile, List.rtakeWhile, List.reverse_append, List.takeWhile_append]
  split
  · -- All that is left behind is of the company, so the run is not.
    rename_i all
    have left : ∀ row ∈ behind.rdropWhile (fun row => row.companyId != company), row.companyId = company := by
      intro row member
      have inRun : row ∈ ((behind.rdropWhile fun row => row.companyId != company).reverse).takeWhile
          fun row => row.companyId == company := by
        rw [(List.takeWhile_prefix _).eq_of_length all]
        exact List.mem_reverse.mpr member
      simpa using List.mem_takeWhile_imp inRun
    have differs : first ≠ company := by
      have nonempty : behind.rdropWhile (fun row => row.companyId != company) ≠ [] := by
        rw [List.rdropWhile, ne_eq, List.reverse_eq_nil_iff]
        exact notAll
      obtain ⟨head, rest, shape⟩ := List.exists_cons_of_ne_nil nonempty
      have isHead : behind.head? = some head := by
        obtain ⟨dropped, whole⟩ := List.rdropWhile_prefix (l := behind) fun row => row.companyId != company
        rw [← whole, shape]
        rfl
      rw [← left head (by simp [shape])]
      exact (other head isHead).symm
    have none : run.reverse.takeWhile (fun row => row.companyId == company) = [] := by
      cases shape : run.reverse with
      | nil => rfl
      | cons last front =>
        refine List.takeWhile_cons_of_neg ?_
        have isLast := isRun last (List.mem_reverse.mp (by simp [shape]))
        simpa [isLast] using differs
    rw [none, List.append_nil, List.takeWhile_eq_self_iff.mpr]
    intro row member
    simpa using left row (List.mem_reverse.mp member)
  · rfl

/-- The grouping loop leaves of every company the table of its last run. -/
theorem getElem?_groupRows {fuel : Nat} {rows : List IvrNode} (enough : rows.length ≤ fuel)
    (table : ExtTreeMap Int CompanyTable) (company : Int) :
    (groupRows fuel rows table)[company]? =
      if rows.any fun row => row.companyId == company then some (oneNodeTable company (lastRun company rows))
      else table[company]? := by
  induction fuel generalizing rows table with
  | zero =>
    have none : rows = [] := List.length_eq_zero_iff.mp (by omega)
    simp [none, groupRows]
  | succ fuel inductionHypothesis =>
    cases rows with
    | nil => simp [groupRows]
    | cons ite rest =>
      have whole := @List.takeWhile_append_dropWhile _
          (fun sec : IvrNode => sec.companyId == ite.companyId) (ite :: rest)
      have isRun : ∀ row ∈ (ite :: rest).takeWhile (fun sec => sec.companyId == ite.companyId),
          row.companyId = ite.companyId := fun row member => by simpa using List.mem_takeWhile_imp member
      have other : ∀ row, ((ite :: rest).dropWhile fun sec => sec.companyId == ite.companyId).head? = some row →
          row.companyId ≠ ite.companyId := by
        intro row isHead
        have head := List.head?_dropWhile_not (fun sec : IvrNode => sec.companyId == ite.companyId)
            (ite :: rest)
        rw [isHead] at head
        simpa using head
      rw [groupRows, inductionHypothesis (length_behind enough)]
      -- The company comes back behind this run, or this is its last run, or it has no rows here.
      by_cases comesBack : ∃ row ∈ (ite :: rest).dropWhile fun sec => sec.companyId == ite.companyId,
          row.companyId = company
      · have found : ((ite :: rest).dropWhile fun sec => sec.companyId == ite.companyId).any
            (fun row => row.companyId == company) = true := by simpa using comesBack
        have present : (ite :: rest).any (fun row => row.companyId == company) = true := by
          rw [← whole, List.any_append, found, Bool.or_true]
        rw [if_pos found, if_pos present, ← lastRun_behind isRun other comesBack, whole]
      · have notFound : ((ite :: rest).dropWhile fun sec => sec.companyId == ite.companyId).any
            (fun row => row.companyId == company) = false := by simpa using comesBack
        have gone : ∀ row ∈ (ite :: rest).dropWhile (fun sec => sec.companyId == ite.companyId),
            row.companyId ≠ company := fun row member same => comesBack ⟨row, member, same⟩
        rw [notFound, if_neg Bool.false_ne_true, ExtTreeMap.getElem?_insert]
        by_cases own : ite.companyId = company
        · subst own
          have last := lastRun_run isRun gone
          rw [whole] at last
          simp [last]
        · have absent : (ite :: rest).any (fun row => row.companyId == company) = false := by
            rw [← whole, List.any_append, notFound, Bool.or_false, List.any_eq_false]
            intro row member
            simpa [isRun row member] using own
          simp [absent, own]

/-! ## The order of the rows -/

/-- What the node table has under a company and a number. -/
def stored (rows : List IvrNode) (company node : Int) : Option IvrNode :=
  (groupRows rows.length rows ∅)[company]?.bind fun nodes => nodes[node]?

theorem getElem?_oneNodeTable (company node : Int) (run : List IvrNode) :
    (oneNodeTable company run)[node]? =
      (run.filter fun row => row.nodeId = node).getLast?.or
        (if node = ivrAgentFlowIndex then some (agentNode company) else none) := by
  rw [oneNodeTable, OrderedMap.getElem?_foldl_insert, ExtTreeMap.getElem?_insert, Option.map_id']
  by_cases agent : node = ivrAgentFlowIndex
  · simp [agent]
  · simp [agent, Ne.symm agent]

/-- A company with rows has the last row of its last run with the number, else the virtual agent node. -/
theorem stored_lastRun (rows : List IvrNode) (company node : Int) :
    stored rows company node =
      if rows.any fun row => row.companyId == company then
        ((lastRun company rows).filter fun row => row.nodeId = node).getLast?.or
          (if node = ivrAgentFlowIndex then some (agentNode company) else none)
      else none := by
  rw [stored, getElem?_groupRows le_rfl]
  split
  · rw [Option.bind_some, getElem?_oneNodeTable]
  · rfl

/-- No two rows have the same company and number. -/
def Distinct (rows : List IvrNode) : Prop := (rows.map fun row => (row.companyId, row.nodeId)).Nodup

instance (rows : List IvrNode) : Decidable (Distinct rows) :=
  inferInstanceAs (Decidable (rows.map fun row => (row.companyId, row.nodeId)).Nodup)

theorem Distinct.same {rows : List IvrNode} (distinct : Distinct rows) {first second : IvrNode}
    (one : first ∈ rows) (other : second ∈ rows) (company : first.companyId = second.companyId)
    (node : first.nodeId = second.nodeId) : first = second :=
  List.inj_on_of_nodup_map distinct one other (Prod.ext company node)

/-- A row is in the table of its company when it stands in the last run of the company, or is what the
table starts with. -/
theorem stored_row_iff {rows : List IvrNode} (distinct : Distinct rows) {row : IvrNode} (member : row ∈ rows) :
    stored rows row.companyId row.nodeId = some row ↔
      row ∈ lastRun row.companyId rows ∨ row = agentNode row.companyId := by
  have present : (rows.any fun other => other.companyId == row.companyId) = true :=
    List.any_eq_true.mpr ⟨row, member, by simp⟩
  rw [stored_lastRun, if_pos present]
  -- A row of the run with this number is the row itself.
  have isRow : ∀ other ∈ (lastRun row.companyId rows).filter fun other => other.nodeId = row.nodeId,
      other = row := by
    intro other inFilter
    obtain ⟨inRun, sameNode⟩ := List.mem_filter.mp inFilter
    obtain ⟨inRows, sameCompany⟩ := company_of_mem_lastRun inRun
    exact distinct.same inRows member sameCompany (by simpa using sameNode)
  cases last : ((lastRun row.companyId rows).filter fun other => other.nodeId = row.nodeId).getLast? with
  | some other =>
    have inFilter := List.mem_of_getLast? last
    rw [Option.some_or, isRow other inFilter]
    rw [isRow other inFilter] at inFilter
    exact ⟨fun _ => .inl (List.mem_filter.mp inFilter).1, fun _ => rfl⟩
  | none =>
    have notInRun : row ∉ lastRun row.companyId rows := by
      intro inRun
      have inFilter : row ∈ (lastRun row.companyId rows).filter fun other => other.nodeId = row.nodeId :=
        List.mem_filter.mpr ⟨inRun, by simp⟩
      rw [List.getLast?_eq_none_iff.mp last] at inFilter
      cases inFilter
    rw [Option.none_or]
    constructor
    · intro agent
      split at agent
      · exact .inr (Option.some.inj agent).symm
      · cases agent
    · rintro (inRun | agent)
      · exact absurd inRun notInRun
      · have number : row.nodeId = ivrAgentFlowIndex := by rw [agent]; rfl
        rw [if_pos number, ← agent]

/-- Every row stands in the last run of its company, or is the virtual agent node. -/
def NothingLost (rows : List IvrNode) : Prop :=
  ∀ row ∈ rows, row ∈ lastRun row.companyId rows ∨ row = agentNode row.companyId

instance (rows : List IvrNode) : Decidable (NothingLost rows) :=
  inferInstanceAs (Decidable (∀ row ∈ rows, row ∈ lastRun row.companyId rows ∨ row = agentNode row.companyId))

theorem groupRows_perm {rows other : List IvrNode} (distinct : Distinct rows) (perm : other.Perm rows)
    (whole : NothingLost rows) (otherWhole : NothingLost other) :
    groupRows other.length other ∅ = groupRows rows.length rows ∅ := by
  have otherDistinct : Distinct other := (perm.map _).nodup_iff.mpr distinct
  apply ExtTreeMap.ext_getElem?
  intro company
  have sameAny : (other.any fun row => row.companyId == company) =
      rows.any fun row => row.companyId == company := by
    rw [Bool.eq_iff_iff, List.any_eq_true, List.any_eq_true]
    simp only [perm.mem_iff]
  by_cases present : (rows.any fun row => row.companyId == company) = true
  · have tables : oneNodeTable company (lastRun company other) =
        oneNodeTable company (lastRun company rows) := by
      apply ExtTreeMap.ext_getElem?
      intro node
      by_cases exists_ : ∃ row ∈ rows, row.companyId = company ∧ row.nodeId = node
      · obtain ⟨row, member, rfl, rfl⟩ := exists_
        have one := (stored_row_iff distinct member).mpr (whole row member)
        have inOther := perm.mem_iff.mpr member
        have two := (stored_row_iff otherDistinct inOther).mpr (otherWhole row inOther)
        rw [stored, getElem?_groupRows le_rfl, if_pos present, Option.bind_some] at one
        rw [stored, getElem?_groupRows le_rfl, if_pos (sameAny.trans present), Option.bind_some] at two
        rw [one, two]
      · have none : ∀ listed : List IvrNode, listed.Perm rows →
            ((lastRun company listed).filter fun row => row.nodeId = node) = [] := by
          intro listed isPerm
          refine List.filter_eq_nil_iff.mpr fun row inRun sameNode => exists_ ?_
          obtain ⟨inList, sameCompany⟩ := company_of_mem_lastRun inRun
          exact ⟨row, isPerm.mem_iff.mp inList, sameCompany, by simpa using sameNode⟩
        rw [getElem?_oneNodeTable, getElem?_oneNodeTable, none other perm, none rows (.refl rows)]
    rw [getElem?_groupRows le_rfl, getElem?_groupRows le_rfl, sameAny, if_pos present, if_pos present, tables]
  · rw [getElem?_groupRows le_rfl, getElem?_groupRows le_rfl, sameAny, if_neg present, if_neg present]

/-- Loading the rows in another order builds the same tables, and every row's node is there. -/
structure OrderIndependent (lib : Libraries) (rows other : List IvrNode) : Prop where
  nodetable : groupRows other.length other ∅ = groupRows rows.length rows ∅
  tables : initivrflow lib other {} = initivrflow lib rows {}
  present : ∀ row ∈ rows, stored rows row.companyId row.nodeId = some row

theorem orderIndependent_iff (lib : Libraries) {rows other : List IvrNode} (distinct : Distinct rows)
    (perm : other.Perm rows) : OrderIndependent lib rows other ↔ NothingLost rows ∧ NothingLost other := by
  constructor
  · intro independent
    refine ⟨fun row member => (stored_row_iff distinct member).mp (independent.present row member), ?_⟩
    intro row member
    have otherDistinct : Distinct other := (perm.map _).nodup_iff.mpr distinct
    refine (stored_row_iff otherDistinct member).mp ?_
    rw [stored, independent.nodetable]
    exact independent.present row (perm.mem_iff.mp member)
  · rintro ⟨whole, otherWhole⟩
    have nodetable := groupRows_perm distinct perm whole otherWhole
    refine ⟨nodetable, ?_, fun row member => (stored_row_iff distinct member).mpr (whole row member)⟩
    simp only [initivrflow, nodetable]

def ivrRow (companyId nodeId : Int) : IvrNode := { companyId, nodeId }

/-- Both orders keep the rows of company 1 together. -/
theorem orderIndependent_grouped :
    OrderIndependent menuLibraries [ivrRow 1 1, ivrRow 1 2, ivrRow 2 1] [ivrRow 2 1, ivrRow 1 2, ivrRow 1 1] :=
  (orderIndependent_iff menuLibraries (by decide) (by decide)).mpr (by decide)

/-- Company 2's row between those of company 1: the first of these is lost. -/
theorem interleaved_row_lost :
    Distinct [ivrRow 1 1, ivrRow 1 2, ivrRow 2 1] ∧
      [ivrRow 1 1, ivrRow 2 1, ivrRow 1 2].Perm [ivrRow 1 1, ivrRow 1 2, ivrRow 2 1] ∧
      ¬ OrderIndependent menuLibraries [ivrRow 1 1, ivrRow 1 2, ivrRow 2 1]
        [ivrRow 1 1, ivrRow 2 1, ivrRow 1 2] := by
  refine ⟨by decide, by decide, fun independent => ?_⟩
  have same := congrArg (fun table : ExtTreeMap Int CompanyTable => table[(1 : Int)]?.bind fun nodes => nodes[(1 : Int)]?)
    independent.nodetable
  exact absurd same (by decide +kernel)

/-! ## Malformed scripts -/

/-- An entry of a `user_word` the loop of `Initivrflow` can read; a missing member counts as null. -/
def EntryReadable (entry : Json) : Prop :=
  entry.hasMembers = true ∧ (entry.field "node").convertsToInt = true ∧
    (entry.field "dtmf").convertsToString = true

/-- The text is not nested too deep, and is no JSON or has only entries that can be read. -/
def ReadableScript (lib : Libraries) (userWord : String) : Prop :=
  lib.exceedsStackLimit userWord = false ∧
    ∀ root, lib.parse userWord = some root → ∀ entry ∈ root.children, EntryReadable entry

open Outcomes in
theorem isOk_addEntry_iff (companyId : Int) (nodes : CompanyTable) (next : ExtTreeMap String NodePointer)
    (entry : Json) : (addEntry companyId nodes next entry).isOk = true ↔ EntryReadable entry := by
  simp only [addEntry, Json.member_eq, EntryReadable, ← Json.isOk_asInt, ← Json.isOk_asString]
  cases entry.hasMembers with
  | false => simp [bind, Except.bind]
  | true =>
    simp only [if_true, bind, Except.bind, true_and]
    cases (entry.field "node").asInt with
    | error fault => simp
    | ok intnextnode =>
      cases (entry.field "dtmf").asString with
      | error fault => simp
      | ok strdtmf =>
        simp only [isOk_ok, and_self, iff_true]
        split
        · rfl
        · split <;> rfl

open Outcomes in
theorem isOk_flowNode_iff (lib : Libraries) (companyId : Int) (nodes : CompanyTable) (node : Int × IvrNode) :
    (flowNode lib companyId nodes node).isOk = true ↔ ReadableScript lib node.2.userWord := by
  rw [flowNode, isOk_bind_iff, ReadableScript, Libraries.read]
  cases lib.exceedsStackLimit node.2.userWord with
  | true => simp
  | false =>
    simp only [Bool.false_eq_true, if_false, Except.ok.injEq, exists_eq_left', true_and]
    cases lib.parse node.2.userWord with
    | none => simp
    | some root =>
      simp only [Option.some.injEq, forall_eq', isOk_bind_iff, isOk_pure, and_true]
      rw [← isOk_iff]
      exact isOk_foldlM_iff (fun entry _ next => isOk_addEntry_iff companyId nodes next entry) _

/-! ### What is read -/

/-- The row is the last with its number in the last run of its company. -/
def Survives (rows : List IvrNode) (row : IvrNode) : Prop :=
  ((lastRun row.companyId rows).filter fun other => other.nodeId = row.nodeId).getLast? = some row

theorem Survives.stored_eq {rows : List IvrNode} {row : IvrNode} (survives : Survives rows row) :
    stored rows row.companyId row.nodeId = some row := by
  have inRun := (List.mem_filter.mp (List.mem_of_getLast? survives)).1
  have present : (rows.any fun other => other.companyId == row.companyId) = true :=
    List.any_eq_true.mpr ⟨row, (company_of_mem_lastRun inRun).1, by simp⟩
  rw [stored_lastRun, if_pos present, survives, Option.some_or]

/-- The table holds surviving rows and virtual agent nodes. -/
theorem survives_of_stored {rows : List IvrNode} {company node : Int} {row : IvrNode}
    (isStored : stored rows company node = some row) :
    row.nodeId = node ∧ (Survives rows row ∨ row = agentNode company) := by
  rw [stored_lastRun] at isStored
  split at isStored
  · cases last : ((lastRun company rows).filter fun other => other.nodeId = node).getLast? with
    | some other =>
      rw [last, Option.some_or, Option.some.injEq] at isStored
      subst isStored
      obtain ⟨inRun, sameNode⟩ := List.mem_filter.mp (List.mem_of_getLast? last)
      have number : other.nodeId = node := by simpa using sameNode
      refine ⟨number, .inl ?_⟩
      rw [Survives, (company_of_mem_lastRun inRun).2, number]
      exact last
    | none =>
      rw [last, Option.none_or] at isStored
      split at isStored
      · rename_i agent
        cases isStored
        exact ⟨agent.symm, .inr rfl⟩
      · cases isStored
  · cases isStored

theorem stored_of_mem {rows : List IvrNode} {company node : Int} {nodes : CompanyTable} {row : IvrNode}
    (ofCompany : (groupRows rows.length rows ∅)[company]? = some nodes) (found : nodes[node]? = some row) :
    stored rows company node = some row := by
  rw [stored, ofCompany, Option.bind_some, found]

theorem mem_of_stored {rows : List IvrNode} {company node : Int} {row : IvrNode}
    (isStored : stored rows company node = some row) :
    ∃ nodes, (groupRows rows.length rows ∅)[company]? = some nodes ∧ nodes[node]? = some row :=
  Option.bind_eq_some_iff.mp isStored

/-- Every text in the node table built from the rows can be read. -/
def ScriptsReadable (lib : Libraries) (rows : List IvrNode) : Prop :=
  ∀ company node row, stored rows company node = some row → ReadableScript lib row.userWord

open Outcomes in
/-- `Initivrflow` completes when every text it comes to can be read. -/
theorem isOk_initivrflow_iff {lib : Libraries} {rows : List IvrNode} :
    (initivrflow lib rows {}).isOk = true ↔ ScriptsReadable lib rows := by
  have oneCompany : ∀ company ∈ (groupRows rows.length rows ∅).toList, ∀ flows,
      (companyFlows lib flows company).isOk = true ↔
        ∀ node ∈ company.2.toList, ReadableScript lib node.2.userWord := by
    intro company _ flows
    refine isOk_foldlM_iff (fun node _ state => ?_) flows
    rw [isOk_bind_iff, ← isOk_flowNode_iff lib company.1 company.2 node, isOk_iff]
    simp
  rw [initivrflow, isOk_bind_iff]
  have outer := isOk_foldlM_iff oneCompany ∅
  rw [isOk_iff] at outer
  simp only [isOk_pure, and_true]
  rw [outer]
  constructor
  · intro readable company node row isStored
    obtain ⟨nodes, ofCompany, found⟩ := mem_of_stored isStored
    exact readable (company, nodes) (OrderedMap.mem_toList_iff.mpr ofCompany) (node, row)
      (OrderedMap.mem_toList_iff.mpr found)
  · intro readable company ofCompany node found
    exact readable company.1 node.1 node.2
      (stored_of_mem (OrderedMap.mem_toList_iff.mp ofCompany) (OrderedMap.mem_toList_iff.mp found))

/-- The flow of a node, where its text can be read. -/
def flowOf (lib : Libraries) (entry : (Int × CompanyTable) × IvrNode) : FlowNode :=
  match flowNode lib entry.1.1 entry.1.2 (entry.2.nodeId, entry.2) with
  | .ok flow => flow
  | .error _ => {}

open Outcomes in
theorem flowNode_eq {lib : Libraries} {companyId : Int} {nodes : CompanyTable} {row : IvrNode}
    (readable : ReadableScript lib row.userWord) :
    flowNode lib companyId nodes (row.nodeId, row) = .ok (flowOf lib ((companyId, nodes), row)) := by
  obtain ⟨flow, is⟩ := isOk_iff.mp ((isOk_flowNode_iff lib companyId nodes (row.nodeId, row)).mpr readable)
  rw [flowOf, is]

/-- The flow table, where every text can be read. -/
def readFlows (lib : Libraries) (table : ExtTreeMap Int CompanyTable) : ExtTreeMap String FlowNode :=
  (allNodes table).foldl (fun flows entry => flows.insert (flowKey entry) (flowOf lib entry)) ∅

theorem initivrflow_eq {lib : Libraries} {rows : List IvrNode}
    (readable : ScriptsReadable lib rows) :
    initivrflow lib rows {} = .ok
      { ivrNodetable := groupRows rows.length rows ∅
        flowtable := readFlows lib (groupRows rows.length rows ∅) } := by
  have oneCompany : ∀ company ∈ (groupRows rows.length rows ∅).toList, ∀ flows,
      companyFlows lib flows company = .ok (company.2.toList.foldl
        (fun flows node => flows.insert (underscored company.1 node.2.nodeId)
          (flowOf lib (company, node.2))) flows) := by
    rintro ⟨company, nodes⟩ ofCompany flows
    refine OrderedMap.foldlM_ok ?_ flows
    rintro ⟨node, row⟩ ofNode flows
    have isStored := stored_of_mem (OrderedMap.mem_toList_iff.mp ofCompany)
        (OrderedMap.mem_toList_iff.mp ofNode)
    obtain ⟨rfl, _⟩ := survives_of_stored isStored
    have flow := @flowNode_eq lib company nodes row (readable company row.nodeId row isStored)
    simp only [flow]
    rfl
  simp only [initivrflow, OrderedMap.foldlM_ok oneCompany, readFlows, allNodes, List.foldl_flatMap,
    List.foldl_map]
  rfl

theorem getElem?_flows {lib : Libraries} {rows : List IvrNode} {company node : Int} {nodes : CompanyTable}
    {row : IvrNode} (ofCompany : (groupRows rows.length rows ∅)[company]? = some nodes)
    (found : nodes[node]? = some row) :
    (readFlows lib (groupRows rows.length rows ∅))[underscored company node]? =
      some (flowOf lib ((company, nodes), row)) := by
  have number := (survives_of_stored (stored_of_mem ofCompany found)).1
  have listed := mem_allNodes.mpr ⟨ofCompany, node, found⟩
  have agree : ∀ other ∈ allNodes (groupRows rows.length rows ∅), flowKey other =
      flowKey ((company, nodes), row) →
      flowOf lib other = flowOf lib ((company, nodes), row) := by
    intro other member sameKey
    rw [entry_of_flowKey (fun _ _ isNode => (survives_of_stored (stored_of_mem ofCompany isNode)).1) ofCompany
      found member sameKey]
  have last := OrderedMap.getElem?_foldl_insert_of_mem ∅ listed agree
  rw [flowKey, number] at last
  exact last

/-- A flow depends on the other nodes through their numbers only. -/
theorem flowOf_congr {lib : Libraries} {companyId : Int} {nodes other : CompanyTable} (row : IvrNode)
    (same : ∀ node : Int, node ∈ nodes ↔ node ∈ other) :
    flowOf lib ((companyId, nodes), row) = flowOf lib ((companyId, other), row) := by
  have body : addEntry companyId nodes = addEntry companyId other := by
    funext next entry
    simp only [addEntry, same]
  simp only [flowOf, flowNode, body]

/-! ### Rows with their scripts taken away -/

/-- The row, without its script when it is malformed. -/
def blank (malformed : IvrNode → Bool) (row : IvrNode) : IvrNode :=
  if malformed row then { row with userWord := "" } else row

section Blank

variable (malformed : IvrNode → Bool)

@[simp] theorem blank_companyId (row : IvrNode) : (blank malformed row).companyId = row.companyId := by
  rw [blank]
  split <;> rfl

@[simp] theorem blank_nodeId (row : IvrNode) : (blank malformed row).nodeId = row.nodeId := by
  rw [blank]
  split <;> rfl

theorem blank_agentNode (company : Int) : blank malformed (agentNode company) = agentNode company := by
  rw [blank]
  split <;> rfl

theorem lastRun_blank (company : Int) (rows : List IvrNode) :
    lastRun company (rows.map (blank malformed)) = (lastRun company rows).map (blank malformed) := by
  simp only [lastRun, List.rdropWhile, List.rtakeWhile, ← List.map_reverse, List.reverse_reverse,
    List.dropWhile_map, List.takeWhile_map, Function.comp_def, blank_companyId]

theorem stored_blank (rows : List IvrNode) (company node : Int) :
    stored (rows.map (blank malformed)) company node = (stored rows company node).map (blank malformed) := by
  have sameAny : ((rows.map (blank malformed)).any fun row => row.companyId == company) =
      rows.any fun row => row.companyId == company := by
    simp [List.any_map, Function.comp_def]
  rw [stored_lastRun, stored_lastRun, sameAny]
  split
  · rw [lastRun_blank, List.filter_map, List.getLast?_map]
    simp only [Function.comp_def, blank_nodeId]
    cases ((lastRun company rows).filter fun row => row.nodeId = node).getLast? with
    | some row => rfl
    | none =>
      split
      · simp [blank_agentNode]
      · rfl
  · rfl

end Blank

/-- `Initivrflow` completes, and leaves of every other node the flow it would leave if the malformed
rows had no script. -/
def OnlyOwnNode (lib : Libraries) (rows : List IvrNode) (malformed : IvrNode → Bool) : Prop :=
  ∃ ivr blanked, initivrflow lib rows {} = .ok ivr ∧
    initivrflow lib (rows.map (blank malformed)) {} = .ok blanked ∧
    ∀ company node row, stored rows company node = some row → malformed row = false →
      ivr.flowtable[underscored company node]? = blanked.flowtable[underscored company node]?

/-- Malformed scripts affect only their own nodes exactly when every script of a surviving row can be read. -/
theorem onlyOwnNode_iff {lib : Libraries} (empty : lib.parse "" = none) (rows : List IvrNode) (malformed : IvrNode → Bool) :
    OnlyOwnNode lib rows malformed ↔ ∀ row, Survives rows row → ReadableScript lib row.userWord := by
  have noScript : ReadableScript lib "" := ⟨lib.flat_empty, by simp [empty]⟩
  constructor
  · rintro ⟨ivr, _, completes, _⟩ row survives
    exact isOk_initivrflow_iff.mp (Outcomes.isOk_iff.mpr ⟨ivr, completes⟩) _ _ row survives.stored_eq
  · intro readable
    have allReadable : ScriptsReadable lib rows := by
      intro company node row isStored
      rcases (survives_of_stored isStored).2 with survives | rfl
      · exact readable row survives
      · exact noScript
    have blankedReadable : ScriptsReadable lib (rows.map (blank malformed)) := by
      intro company node row isStored
      rw [stored_blank, Option.map_eq_some_iff] at isStored
      obtain ⟨original, isOriginal, rfl⟩ := isStored
      rw [blank]
      split
      · exact noScript
      · exact allReadable company node original isOriginal
    refine ⟨_, _, initivrflow_eq allReadable, initivrflow_eq blankedReadable, ?_⟩
    intro company node row isStored wellFormed
    have isBlanked := stored_blank malformed rows company node
    rw [isStored, Option.map_some] at isBlanked
    have unchanged : blank malformed row = row := by rw [blank, wellFormed]; rfl
    rw [unchanged] at isBlanked
    obtain ⟨nodes, ofCompany, found⟩ := mem_of_stored isStored
    obtain ⟨blankedNodes, ofBlanked, foundBlanked⟩ := mem_of_stored isBlanked
    rw [getElem?_flows ofCompany found, getElem?_flows ofBlanked foundBlanked]
    -- The company's table has the same numbers with and without the scripts.
    have sameNumbers : ∀ number : Int, number ∈ nodes ↔ number ∈ blankedNodes := by
      intro number
      have same := stored_blank malformed rows company number
      rw [stored, stored, ofCompany, ofBlanked, Option.bind_some, Option.bind_some] at same
      rw [ExtTreeMap.mem_iff_isSome_getElem?, ExtTreeMap.mem_iff_isSome_getElem?, same, Option.isSome_map]
    rw [flowOf_congr row sameNumbers]

/-- Scripts that can be read may be malformed otherwise: nothing else changes with them. -/
theorem onlyOwnNode_menu : OnlyOwnNode menuLibraries menuRows fun row => row.userWord == menuText := by
  refine (onlyOwnNode_iff rfl menuRows _).mpr fun row survives => ⟨rfl, fun root parsed entry member => ?_⟩
  have inRows := (company_of_mem_lastRun (List.mem_filter.mp (List.mem_of_getLast? survives)).1).1
  simp only [menuRows, List.mem_cons, List.not_mem_nil, or_false] at inRows
  rcases inRows with rfl | rfl | rfl
  · cases parsed
    simp only [Json.children, List.mem_cons, List.not_mem_nil, or_false] at member
    rcases member with rfl | rfl | rfl <;> exact ⟨rfl, rfl, rfl⟩
  · cases parsed
  · cases parsed

/-- A parser that knows an array of one number. -/
def numberLibraries : Libraries where
  parse text := if text = "[1]" then some (.array [.int 1]) else none
  toStyledString _ := ""
  sqlite3Exec _ _ := none

/-- `["node"]` on a number raises, and the flow of the other company is not stored. -/
theorem number_as_entry_raises :
    ¬ OnlyOwnNode numberLibraries [{ companyId := 1, nodeId := 1, userWord := "[1]" }, ivrRow 2 1]
      fun row => row.companyId == 1 := by
  rintro ⟨ivr, _, completes, _⟩
  have raises : (initivrflow numberLibraries
      [{ companyId := 1, nodeId := 1, userWord := "[1]" }, ivrRow 2 1] {}).isOk = false := by decide +kernel
  rw [completes] at raises
  cases raises

end CallCenter.Verified.IvrLoading
