import Mirage.AgentEnrollment

/-! Roles of enrolled agents. The upsert of `enroll_agent` replaces profile and serial of
an existing row and leaves its `role`, and renewals are issued for the role of the row. -/

namespace Mirage.EnrollmentRoles
open AgentDatabase AgentEnrollment

def currentIssue (db : Database) (agentId : String) : Option HistoryRow :=
  ((historyOf db agentId).filter isIssue).getLast?

/-- Every row has the profile of its role, and the role its current
certificate was issued for. -/
def Consistent (db : Database) : Prop :=
  ∀ agentId row, db.agents.find agentId = some row →
    row.certificateProfile = row.role.profile ∧
    ∃ entry, currentIssue db agentId = some entry ∧
      entry.certificateSerial = row.certificateSerial ∧ row.role = entry.role

def Admitted (cfg : Config) (db : Database) : Call → Prop
  | .enroll req => ∀ jti subject tokenId token certificate serial row,
      Passes cfg db req jti subject tokenId token certificate serial →
      db.agents.find token.subject = some row → token.role = row.role
  | _ => True

theorem currentIssue_append {db db' : Database} {entry : HistoryRow}
    (h : db'.history = db.history ++ [entry]) (agentId : String) :
    currentIssue db' agentId =
      if entry.agentId = agentId ∧ isIssue entry = true then some entry else currentIssue db agentId := by
  unfold currentIssue
  rw [historyOf_append h, List.filter_append]
  by_cases same : entry.agentId = agentId <;> by_cases issue : isIssue entry = true <;>
    simp [same, issue]

theorem unadmitted_consistent {db db' : Database} (consistent : Consistent db)
    (unadmitted : Unadmitted db db') : Consistent db' := by
  obtain rfl | ⟨tokenId, subject, rfl⟩ := unadmitted
  · exact consistent
  · exact consistent

theorem issue_consistent {db db' : Database} (consistent : Consistent db) (row : AgentRow)
    {entry : HistoryRow}
    (find : ∀ k, db'.agents.find k = if k = entry.agentId then some row else db.agents.find k)
    (history : db'.history = db.history ++ [entry]) (issue : isIssue entry = true)
    (serial : entry.certificateSerial = row.certificateSerial) :
    Consistent db' ↔ row.certificateProfile = row.role.profile ∧ row.role = entry.role := by
  have current := currentIssue_append history
  constructor
  · intro after
    obtain ⟨profile, last, found, -, role⟩ := after entry.agentId row (by simp [find])
    rw [current, if_pos ⟨rfl, issue⟩] at found
    cases found
    exact ⟨profile, role⟩
  · rintro ⟨profile, role⟩ agentId other found
    rw [find] at found
    split at found
    · rename_i here
      cases found
      exact ⟨profile, entry, by rw [current, if_pos ⟨here.symm, issue⟩], serial, role⟩
    · rename_i apart
      obtain ⟨profile', last, same, rest⟩ := consistent agentId other found
      exact ⟨profile', last, by rw [current, if_neg fun h => apart h.1.symm, same], rest⟩

theorem enrolled_consistent {db : Database} (consistent : Consistent db) (req : EnrollRequest)
    (jti : String) (tokenId : ℕ) (token : TokenRow) (subject serial notAfter : String) :
    Consistent (admitted db req jti tokenId token subject serial notAfter) ↔
      ∀ row, db.agents.find token.subject = some row → token.role = row.role := by
  let agent := newAgent token serial notAfter req
  let row := ((db.agents.find token.subject).map (reEnrolled agent)).getD agent
  have written : token.role.profile = row.certificateProfile ∧ serial = row.certificateSerial := by
    simp only [row]
    cases db.agents.find token.subject <;> exact ⟨rfl, rfl⟩
  have find : ∀ k, (admitted db req jti tokenId token subject serial notAfter).agents.find k =
      if k = token.subject then some row else db.agents.find k :=
    KeyedTable.find_upsert db.agents agent (reEnrolled agent) (reEnrolled_agentId agent)
  rw [issue_consistent consistent row find rfl rfl written.2, ← written.1]
  cases found : db.agents.find token.subject with
  | none =>
    have role : row.role = token.role := by simp only [row, found]; rfl
    simp [role]
  | some old =>
    have role : row.role = old.role := by simp only [row, found]; rfl
    rw [role]
    constructor
    · rintro ⟨-, same⟩ row' h
      cases h
      exact same.symm
    · intro h
      have same := h old rfl
      exact ⟨congrArg Role.profile same, same.symm⟩

theorem renewed_consistent {db db' : Database} {agentId : String} {row : AgentRow}
    {serial notAfter : String} (consistent : Consistent db)
    (renewal : RenewedBy db agentId row serial notAfter db') : Consistent db' := by
  rw [renewal.written]
  have find : ∀ k, (db.agents.update agentId (renewed serial notAfter)
      (renewed_agentId serial notAfter)).find k =
      if k = agentId then some (renewed serial notAfter row) else db.agents.find k := by
    intro k
    rw [KeyedTable.find_update, renewal.found]
    rfl
  refine (issue_consistent consistent (renewed serial notAfter row) find rfl rfl rfl).mpr ⟨?_, rfl⟩
  exact (consistent agentId row renewal.found).1

theorem revoked_consistent {db db' : Database} {agentId reason : String} {row : AgentRow}
    (consistent : Consistent db) (found : db.agents.find agentId = some row)
    (agents : db'.agents = db.agents.update agentId (revoked reason) (revoked_agentId reason))
    (history : db'.history = db.history ++
      [⟨agentId, row.certificateSerial, .revoked, reason, row.role, none⟩]) : Consistent db' := by
  intro k other h
  rw [currentIssue_append history, if_neg (by simp [isIssue])]
  rw [agents, KeyedTable.find_update] at h
  split at h
  · rename_i here
    rw [found] at h
    cases h
    rw [here]
    exact consistent agentId row found
  · exact consistent k other h

theorem step_consistent (cfg : Config) (db : Database) (call : Call) (consistent : Consistent db) :
    Consistent (step cfg db call) ↔ Admitted cfg db call := by
  cases call with
  | createEnrollmentToken req =>
    refine iff_of_true ?_ trivial
    simp only [step]
    obtain ⟨failure, raised⟩ | ⟨after, a, done, returned⟩ := settle_cases db (insertToken db req)
    · rw [raised]
      exact consistent
    · obtain ⟨tokens, token, -, rfl⟩ := insertToken_eq_ok done
      rw [returned]
      exact consistent
  | enroll req =>
    constructor
    · intro after jti subject tokenId token certificate serial row passes found
      simp only [step, enrollAgent_passes passes] at after
      exact (enrolled_consistent consistent ..).mp after row found
    · intro admitted
      obtain ⟨-, unadmitted⟩ | ⟨jti, subject, tokenId, token, certificate, serial, -, passes, -⟩ :=
        enrollAgent_cases cfg db req
      · exact unadmitted_consistent consistent unadmitted
      · simp only [step, enrollAgent_passes passes]
        exact (enrolled_consistent consistent ..).mpr fun row found =>
          admitted jti subject tokenId token certificate serial row passes found
  | renew req =>
    refine iff_of_true ?_ trivial
    simp only [step]
    obtain ⟨failure, raised⟩ | ⟨after, a, done, returned⟩ := settle_cases db (renewAgent cfg db req)
    · rw [raised]
      exact consistent
    · obtain ⟨row, serial, notAfter, renewal⟩ := renewAgent_eq_ok done
      rw [returned]
      exact renewed_consistent consistent renewal
  | revoke req =>
    refine iff_of_true ?_ trivial
    simp only [step]
    obtain same | ⟨row, found, -, written⟩ := revokeAgent_cases db req
    · rw [same]
      exact consistent
    · rw [written]
      exact revoked_consistent consistent found rfl rfl

/-- Role and profile stay consistent through a run exactly when every
enrolment of an existing agent carries a token of the role of its row. -/
theorem roles_consistent_iff (cfg : Config) (db₀ : Database) (calls : List Call) :
    EventRun.Throughout (step cfg) Consistent (unenrolled db₀) calls ↔
      EventRun.Along (step cfg) (Admitted cfg) (unenrolled db₀) calls := by
  refine EventRun.throughout_iff_along (I := fun _ => True) (fun _ _ _ => trivial)
    (fun db call _ consistent => step_consistent cfg db call consistent) trivial ?_ calls
  intro agentId row found
  cases found

/-! An agent enrolled as an endpoint that enrols again as a spider. -/

def sampleHash : String := "0123456789abcdef0123456789abcdef0123456789abcdef0123456789abcdef"

def firstToken : String :=
  "eyJhbGciOiJFUzI1NiIsInR5cCI6IkpXVCJ9.eyJqdGkiOiIwMDAwMDAwMC0wMDAwLTAwM" ++
    "DAtMDAwMC0wMDAwMDAwMDAwMDEiLCJzdWIiOiJhZ2VudC0xIn0.c2ln"

def secondToken : String :=
  "eyJhbGciOiJFUzI1NiIsInR5cCI6IkpXVCJ9.eyJqdGkiOiIwMDAwMDAwMC0wMDAwLTAwM" ++
    "DAtMDAwMC0wMDAwMDAwMDAwMDIiLCJzdWIiOiJhZ2VudC0xIn0.c2ln"

def sampleConfig : Config where
  decode token :=
    if token = firstToken then
      some (.obj [("jti", .str "00000000-0000-0000-0000-000000000001"), ("sub", .str "agent-1")])
    else if token = secondToken then
      some (.obj [("jti", .str "00000000-0000-0000-0000-000000000002"), ("sub", .str "agent-1")])
    else none
  parseUuid
    | "00000000-0000-0000-0000-000000000001" => some 1
    | "00000000-0000-0000-0000-000000000002" => some 2
    | _ => none
  serialBase10 pem := some pem

def sampleDatabase : Database where
  tokens := .empty
  agents := .empty
  history := []
  allowlist
    | "0123456789abcdef0123456789abcdef0123456789abcdef0123456789abcdef" => some .endpoint
    | _ => some .spider
  receipts := []
  snapshots := .empty

def sampleEnrollment (token hash serial : String) : EnrollRequest :=
  ⟨token, "host-1", hash, 0, .issued ⟨serial, "", "2026-01-02T03:04:05.678Z"⟩, true⟩

def roleChange : List Call :=
  [ .createEnrollmentToken ⟨"ENDPOINT", "agent-1", some (1, 300), true⟩,
    .createEnrollmentToken ⟨"SPIDER", "agent-1", some (2, 300), true⟩,
    .enroll (sampleEnrollment firstToken sampleHash "1001"),
    .enroll (sampleEnrollment secondToken
      "fedcba9876543210fedcba9876543210fedcba9876543210fedcba9876543210" "1002") ]

theorem roleChange_inconsistent :
    ¬ EventRun.Throughout (step sampleConfig) Consistent (unenrolled sampleDatabase) roleChange := by
  intro consistent
  have last := EventRun.throughout_last consistent
  have mixed : ((EventRun.run (step sampleConfig) (unenrolled sampleDatabase)
      roleChange).agents.find "agent-1").any
        (fun row => row.certificateProfile ≠ row.role.profile) = true := by
    decide +kernel
  obtain ⟨row, found, different⟩ := (Option.any_eq_true _ _).mp mixed
  simp only [ne_eq, decide_not, Bool.not_eq_true', decide_eq_false_iff_not] at different
  exact different (last "agent-1" row found).1

end Mirage.EnrollmentRoles
