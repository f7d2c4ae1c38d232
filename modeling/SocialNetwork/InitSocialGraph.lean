import SocialNetwork.FollowResponses

/-!
# Loading the social graph

The requests of `init_social_graph.py`.  Its connections are limited to one,
so the requests are served in the order in which they are made: the
registrations, then two follows for each edge of the file.  An edge is a line
split into words, of which the script takes the first two.
-/

namespace SocialNetwork.InitSocialGraph

open FollowHandlers (FollowEnv Request Session)
open Users
open UserHandlers hiding Request
open SocialGraph (Action)

/-! ## The script -/

def str (i : ℕ) : String := Strconv.formatInt i 10

def followForm (user₀ user₁ : String) : Form
  | "user_name" => "username_" ++ user₀
  | "followee_name" => "username_" ++ user₁
  | _ => ""

def uploadFollow (env : FollowEnv) (user₀ user₁ : String) : Request :=
  .follow env (.ok (followForm user₀ user₁))

def registerForm (user : String) : Form
  | "first_name" => "first_name_" ++ user
  | "last_name" => "last_name_" ++ user
  | "username" => "username_" ++ user
  | "password" => "password_" ++ user
  | "user_id" => user
  | _ => ""

def uploadRegister (env : Env) (user : String) : Request :=
  .user (.register env (.ok (registerForm user)))

def register (env : ℕ → Env) (nodes : ℕ) : List Request :=
  (List.range' 1 nodes).map fun i => uploadRegister (env i) (str i)

/-- The users of a line; with fewer than two words it raises an
`IndexError`. -/
def users (edge : List String) : Option (String × String) := do
  let user₀ ← edge[0]?
  let user₁ ← edge[1]?
  return (user₀, user₁)

/-- The edges in the order in which they are requested. -/
def requested (edges : List (String × String)) : List (String × String) :=
  edges.flatMap fun edge => [edge, edge.swap]

/-- The requests for the lines of the file, unless one of them is too short
and the script stops there. -/
def follow (env : ℕ → FollowEnv) (edges : List (List String)) :
    Option (List Request) := do
  let edges ← edges.mapM users
  return (requested edges).mapIdx fun idx edge =>
    uploadFollow (env idx) edge.1 edge.2

/-! ## Lines -/

theorem users_eq_some_iff {edge : List String} {user₀ user₁ : String} :
    users edge = some (user₀, user₁) ↔ edge.take 2 = [user₀, user₁] := by
  unfold users
  rcases edge with - | ⟨word, - | ⟨word', words⟩⟩ <;> simp

theorem mapM_users {edges : List (List String)}
    (hwords : ∀ edge ∈ edges, 2 ≤ edge.length) :
    ∃ pairs, edges.mapM users = some pairs ∧
      ∀ user₀ user₁, (user₀, user₁) ∈ pairs ↔
        ∃ edge ∈ edges, edge.take 2 = [user₀, user₁] := by
  induction edges with
  | nil => exact ⟨[], rfl, by simp⟩
  | cons edge edges ih =>
      rw [List.forall_mem_cons] at hwords
      obtain ⟨pairs, hpairs, hmem⟩ := ih hwords.2
      obtain ⟨pair, hpair⟩ : ∃ pair, users edge = some pair := by
        rcases edge with - | ⟨word, - | ⟨word', words⟩⟩
        · simp at hwords
        · simp at hwords
        · exact ⟨_, rfl⟩
      refine ⟨pair :: pairs, ?_, ?_⟩
      · rw [List.mapM_cons, hpair, hpairs]
        rfl
      · intro user₀ user₁
        rw [List.mem_cons, hmem, List.exists_mem_cons_iff,
          ← users_eq_some_iff, hpair, Option.some.injEq, eq_comm]

theorem length_of_mapM_users {edges : List (List String)}
    {pairs : List (String × String)} (hpairs : edges.mapM users = some pairs) :
    ∀ edge ∈ edges, 2 ≤ edge.length := by
  induction edges generalizing pairs with
  | nil => simp
  | cons edge edges ih =>
      rw [List.mapM_cons, Option.bind_eq_bind, Option.bind_eq_some_iff]
        at hpairs
      obtain ⟨pair, hpair, hpairs⟩ := hpairs
      obtain ⟨rest, hrest, -⟩ := Option.bind_eq_some_iff.mp hpairs
      have hlength := congrArg List.length (users_eq_some_iff.mp hpair)
      rw [List.length_take, List.length_cons, List.length_singleton]
        at hlength
      rw [List.forall_mem_cons]
      exact ⟨by omega, ih hrest⟩

/-- The script asks for every edge when every line has two words. -/
theorem follow_isSome_iff (env : ℕ → FollowEnv)
    (edges : List (List String)) :
    (follow env edges).isSome ↔ ∀ edge ∈ edges, 2 ≤ edge.length := by
  constructor
  · intro hfollow
    obtain ⟨requests, hrequests⟩ := Option.isSome_iff_exists.mp hfollow
    obtain ⟨pairs, hpairs, -⟩ := Option.bind_eq_some_iff.mp hrequests
    exact length_of_mapM_users hpairs
  · intro hwords
    obtain ⟨pairs, hpairs, -⟩ := mapM_users hwords
    rw [follow, hpairs]
    rfl

/-! ## Texts -/

theorem str_eq (i : ℕ) : str i = String.ofList (Nat.toDigits 10 i) := rfl

theorem idText_ofNat {i : ℕ} (hi : i < 2 ^ 63) :
    idText (Int64.ofNat i) = str i := by
  unfold idText str
  congr 1
  exact Int64.toInt_ofNat_of_lt hi

theorem str_injective : Function.Injective str := by
  intro i j h
  exact Int.ofNat_inj.mp
    (Strconv.formatInt_injective (by norm_num) (by norm_num) h)

theorem username_injective :
    Function.Injective fun user : String => "username_" ++ user := by
  intro user user' h
  exact String.append_right_inj _ |>.mp h

theorem utf8ByteSize_ofList {cs : List Char}
    (hcs : ∀ c ∈ cs, c.utf8Size = 1) :
    (String.ofList cs).utf8ByteSize = cs.length := by
  induction cs with
  | nil => rfl
  | cons c cs ih =>
      rw [List.forall_mem_cons] at hcs
      rw [String.ofList_cons, String.utf8ByteSize_append,
        String.utf8ByteSize_singleton, hcs.1, ih hcs.2, List.length_cons,
        Nat.add_comm]

theorem legalUsername {i : ℕ} (hi : i < 2 ^ 63) :
    LegalUsername ("username_" ++ str i) := by
  have hdigit : ∀ d < 10, (Nat.digitChar d).utf8Size = 1 ∧
      legalChar (Nat.digitChar d) = true := by decide
  have hdigits : ∀ c ∈ Nat.toDigits 10 i, c.utf8Size = 1 ∧
      legalChar c = true := by
    intro c hc
    obtain ⟨d, hd, rfl⟩ := Strconv.mem_toDigits (by norm_num) hc
    exact hdigit d hd
  have hlength : (Nat.toDigits 10 i).length ≤ 19 :=
    (Nat.length_toDigits_le_iff (by norm_num) (by norm_num)).mpr (by omega)
  have hsize : "username_".utf8ByteSize = 9 := by decide
  have hlegal : "username_".toList.all legalChar = true := by decide
  rw [LegalUsername, String.utf8ByteSize_append, hsize, str_eq,
    utf8ByteSize_ofList fun c hc => (hdigits c hc).1, String.toList_append,
    List.all_append, hlegal, String.toList_ofList, Bool.true_and,
    List.all_eq_true]
  exact ⟨by omega, fun c hc => (hdigits c hc).2⟩

/-! ## Registrations -/

section Load

variable (hashPwd : String → String)
  (sign : UserService.Claims → Option String) (machineID : String)

variable {stores : Stores} {env : Env} {session : Session}
  {nodes : ℕ}

/-- The names are those of the users from 1 on, each with its number. -/
def Numbered (users : List User) (nodes : ℕ) : Prop :=
  ∀ username userID, registeredID users username = some userID ↔
    ∃ i, 1 ≤ i ∧ i ≤ nodes ∧ username = "username_" ++ str i ∧
      userID = Int64.ofNat i

theorem Numbered.unused (hnumbered : Numbered stores.users nodes)
    (hgood : Coherent stores) {username : String}
    (hnew : ∀ i ≤ nodes, username ≠ "username_" ++ str i) :
    ∀ user ∈ stores.users, user.username ≠ username := by
  rintro user huser rfl
  have hid : registeredID stores.users user.username = some user.userID :=
    (registeredID_eq_some_iff hgood.usernames).mpr ⟨user, huser, rfl, rfl⟩
  obtain ⟨i, -, hle, hname, -⟩ := (hnumbered _ _).mp hid
  exact hnew i hle hname

theorem validateRegisterParams_registerForm {i : ℕ} (hi : i < 2 ^ 63) :
    validateRegisterParams (.ok (registerForm (str i))) =
      .ok ⟨⟨"first_name_" ++ str i, "last_name_" ++ str i,
        "username_" ++ str i, "password_" ++ str i⟩, Int64.ofNat i⟩ := by
  have hnonempty : ∀ a b : String, a ≠ "" → a ++ b ≠ "" := by
    intro a b ha h
    exact ha (String.append_eq_empty_iff.mp h).1
  have hstr : str i ≠ "" := by
    intro h
    rw [str_eq, String.ofList_eq_empty_iff] at h
    exact absurd h (List.ne_nil_of_length_pos Nat.length_toDigits_pos)
  have hparse : parseID (str i) = .ok (Int64.ofNat i) := by
    rw [← idText_ofNat hi, parseID_idText]
  have hid : registerForm (str i) "user_id" = str i := rfl
  have husername : registerForm (str i) "username" ≠ "" :=
    hnonempty "username_" _ (by decide)
  have hfirst : registerForm (str i) "first_name" ≠ "" :=
    hnonempty "first_name_" _ (by decide)
  have hlast : registerForm (str i) "last_name" ≠ "" :=
    hnonempty "last_name_" _ (by decide)
  unfold validateRegisterParams
  simp only [hid, if_pos hstr, hparse, if_neg husername, if_neg hfirst,
    if_neg hlast]
  rfl

theorem registerHandler_users {i : ℕ} (hi : i < 2 ^ 63)
    (hunused : ∀ user ∈ stores.users, user.username ≠
      "username_" ++ str i) (hup : env.Up) :
    ∃ user : User, (registerHandler hashPwd machineID stores env
        (.ok (registerForm (str i)))).2.users = stores.users ++ [user] ∧
      user.username = "username_" ++ str i ∧
      user.userID = Int64.ofNat i := by
  have hfind : stores.find env ("username_" ++ str i) = .ok none := by
    rw [Stores.find, if_pos (hup .mongodb)]
    congr 1
    rw [List.head?_eq_none_iff, List.eq_nil_iff_forall_not_mem]
    intro user hmem
    obtain ⟨huser, hname⟩ := (mem_find_iff env.order stores.users).mp hmem
    exact hunused user huser hname
  have hid : Int64.ofNat i ≠ -1 := by
    intro h
    have hneg := congrArg Int64.toInt h
    rw [Int64.toInt_ofNat_of_lt hi] at hneg
    exact absurd hneg (by simp)
  unfold registerHandler
  simp only [validateRegisterParams_registerForm hi, if_neg hid,
    RegisterUserWithId, hfind, if_pos (hup .socialGraph)]
  exact ⟨_, rfl, rfl, rfl⟩

theorem Numbered.concat {users : List User}
    (hnumbered : Numbered users nodes) {user : User}
    (hnodup : (users.map User.username).Nodup)
    (hnodup' : ((users ++ [user]).map User.username).Nodup)
    (hname : user.username = "username_" ++ str (nodes + 1))
    (hid : user.userID = Int64.ofNat (nodes + 1)) :
    Numbered (users ++ [user]) (nodes + 1) := by
  intro username userID
  rw [registeredID_eq_some_iff hnodup']
  constructor
  · rintro ⟨found, hmem, rfl, rfl⟩
    rcases List.mem_append.mp hmem with hmem | hmem
    · obtain ⟨i, hpos, hle, hfound⟩ := (hnumbered _ _).mp
        ((registeredID_eq_some_iff hnodup).mpr ⟨found, hmem, rfl, rfl⟩)
      exact ⟨i, hpos, by omega, hfound⟩
    · rw [List.mem_singleton.mp hmem]
      exact ⟨nodes + 1, by omega, le_rfl, hname, hid⟩
  · rintro ⟨i, hpos, hle, rfl, rfl⟩
    rcases Nat.lt_or_eq_of_le hle with hlt | rfl
    · obtain ⟨found, hmem, hfound⟩ :=
        (registeredID_eq_some_iff hnodup).mp
          ((hnumbered _ _).mpr ⟨i, hpos, by omega, rfl, rfl⟩)
      exact ⟨found, List.mem_append_left _ hmem, hfound⟩
    · exact ⟨user, List.mem_append_right _ (List.mem_singleton_self _),
        hname, hid⟩

/-- The registrations go through. -/
structure Registered (session : Session) (nodes : ℕ) : Prop where
  told : ∃ calls, session.Told calls
  users : Numbered session.stores.users nodes
  quiet : ∀ users userID followeeID,
    session.log.filterMap (FollowHandlers.event users userID followeeID) = []

theorem Registered.uploadRegister (hgood : Registered session nodes)
    (hnodes : nodes + 1 < 2 ^ 63) (hup : env.Up) :
    Registered (session.serve hashPwd sign machineID
      (uploadRegister env (str (nodes + 1)))) (nodes + 1) := by
  obtain ⟨calls, htold⟩ := hgood.told
  obtain ⟨calls', htold'⟩ := htold.serve hashPwd sign machineID
    (InitSocialGraph.uploadRegister env (str (nodes + 1)))
  have hunused : ∀ user ∈ session.stores.users,
      user.username ≠ "username_" ++ str (nodes + 1) := by
    refine hgood.users.unused htold.coherent ?_
    intro i hi h
    have hsame := str_injective (username_injective h)
    omega
  obtain ⟨user, husers, hname, hid⟩ :=
    registerHandler_users hashPwd machineID hnodes hunused hup
  refine ⟨⟨calls', htold'⟩, ?_, ?_⟩
  · have hnodup' := htold'.coherent.usernames
    change Numbered (registerHandler hashPwd machineID session.stores env
      (.ok (registerForm (str (nodes + 1))))).2.users (nodes + 1)
    change ((registerHandler hashPwd machineID session.stores env
      (.ok (registerForm (str (nodes + 1))))).2.users.map
        User.username).Nodup at hnodup'
    rw [husers] at hnodup' ⊢
    exact hgood.users.concat htold.coherent.usernames hnodup' hname hid
  · intro users userID followeeID
    change (session.log ++ [_]).filterMap _ = []
    rw [List.filterMap_append, hgood.quiet]
    rfl

theorem registered_register (env : ℕ → Env) (hup : ∀ i, (env i).Up)
    (hnodes : nodes < 2 ^ 63) :
    Registered (Session.initial.serveAll hashPwd sign machineID
      (register env nodes)) nodes := by
  induction nodes with
  | zero =>
      refine ⟨⟨[], FollowHandlers.Session.Told.initial⟩, ?_,
        fun _ _ _ => rfl⟩
      intro username userID
      refine iff_of_false (by simp [register, Session.serveAll,
        Session.initial, Stores.initial, registeredID]) ?_
      rintro ⟨i, hpos, hle, -⟩
      omega
  | succ nodes ih =>
      have hregister : register env (nodes + 1) =
          register env nodes ++
            [uploadRegister (env (nodes + 1)) (str (nodes + 1))] := by
        rw [register, List.range'_concat, List.map_append]
        simp [register, Nat.add_comm]
      rw [hregister, Session.serveAll, List.foldl_append]
      exact (ih (by omega)).uploadRegister hashPwd sign machineID hnodes
        (hup _)

/-! ## Follows -/

/-- A requested edge between two of the users. -/
def Edge (nodes : ℕ) (edges : List (String × String))
    (userID followeeID : Int64) : Prop :=
  ∃ i j, (1 ≤ i ∧ i ≤ nodes) ∧ (1 ≤ j ∧ j ≤ nodes) ∧
    (str i, str j) ∈ edges ∧ userID = Int64.ofNat i ∧
    followeeID = Int64.ofNat j

theorem edge_concat {edges : List (String × String)}
    {edge : String × String} {userID followeeID : Int64} :
    Edge nodes (edges ++ [edge]) userID followeeID ↔
      Edge nodes edges userID followeeID ∨
        Edge nodes [edge] userID followeeID := by
  unfold Edge
  simp only [List.mem_append]
  constructor
  · rintro ⟨i, j, hi, hj, hmem | hmem, hids⟩
    · exact .inl ⟨i, j, hi, hj, hmem, hids⟩
    · exact .inr ⟨i, j, hi, hj, hmem, hids⟩
  · rintro (⟨i, j, hi, hj, hmem, hids⟩ | ⟨i, j, hi, hj, hmem, hids⟩)
    · exact ⟨i, j, hi, hj, .inl hmem, hids⟩
    · exact ⟨i, j, hi, hj, .inr hmem, hids⟩

theorem validateFollowParams_followForm (user₀ user₁ : String) :
    FollowHandlers.validateFollowParams (.ok (followForm user₀ user₁)) =
      .ok ⟨-1, -1, "username_" ++ user₀, "username_" ++ user₁⟩ := rfl

/-- A username of the script is found when its user is one of those that are
registered. -/
theorem Numbered.findable_iff {users : List User}
    (hnumbered : Numbered users nodes) (hnodes : nodes < 2 ^ 63)
    {user : String} {userID : Int64} :
    FollowHandlers.Findable users ("username_" ++ user) ∧
        registeredID users ("username_" ++ user) = some userID ↔
      ∃ i, (1 ≤ i ∧ i ≤ nodes) ∧ user = str i ∧
        userID = Int64.ofNat i := by
  rw [hnumbered]
  constructor
  · rintro ⟨-, i, hpos, hle, hname, hid⟩
    exact ⟨i, ⟨hpos, hle⟩, username_injective hname, hid⟩
  · rintro ⟨i, ⟨hpos, hle⟩, rfl, rfl⟩
    refine ⟨⟨legalUsername (by omega), ?_⟩, i, hpos, hle, rfl, rfl⟩
    rw [(hnumbered _ _).mpr ⟨i, hpos, hle, rfl, rfl⟩]
    rfl

theorem Numbered.accepted_iff {users : List User}
    (hnumbered : Numbered users nodes) (hnodes : nodes < 2 ^ 63)
    (user₀ user₁ : String) (userID followeeID : Int64) :
    FollowHandlers.Accepted users (.ok (followForm user₀ user₁)) ∧
        FollowHandlers.pair users (.ok (followForm user₀ user₁)) =
          some (userID, followeeID) ↔
      Edge nodes [(user₀, user₁)] userID followeeID := by
  have hnonempty : ∀ user : String, "username_" ++ user ≠ "" := by
    intro user h
    exact absurd (String.append_eq_empty_iff.mp h).1 (by decide)
  have haccepted : FollowHandlers.Accepted users
        (.ok (followForm user₀ user₁)) ↔
      FollowHandlers.Findable users ("username_" ++ user₀) ∧
        FollowHandlers.Findable users ("username_" ++ user₁) := by
    simp [FollowHandlers.Accepted, validateFollowParams_followForm,
      hnonempty]
  have hpair : FollowHandlers.pair users (.ok (followForm user₀ user₁)) =
        some (userID, followeeID) ↔
      registeredID users ("username_" ++ user₀) = some userID ∧
        registeredID users ("username_" ++ user₁) = some followeeID := by
    cases huser : registeredID users ("username_" ++ user₀) <;>
      cases hfollowee : registeredID users ("username_" ++ user₁) <;>
        simp [FollowHandlers.pair, validateFollowParams_followForm, huser,
          hfollowee]
  rw [haccepted, hpair, and_and_and_comm, hnumbered.findable_iff hnodes,
    hnumbered.findable_iff hnodes]
  constructor
  · rintro ⟨⟨i, hi, rfl, rfl⟩, j, hj, rfl, rfl⟩
    exact ⟨i, j, hi, hj, List.mem_singleton_self _, rfl, rfl⟩
  · rintro ⟨i, j, hi, hj, hmem, hids⟩
    obtain ⟨rfl, rfl⟩ := Prod.mk.inj (List.mem_singleton.mp hmem)
    exact ⟨⟨i, hi, rfl, hids.1⟩, j, hj, rfl, hids.2⟩

/-- What the responses say after the follows for the edges. -/
structure Followed (session : Session) (nodes : ℕ)
    (edges : List (String × String)) : Prop where
  told : ∃ calls, session.Told calls
  users : Numbered session.stores.users nodes
  follows : ∀ userID followeeID, ∀ action ∈ session.log.filterMap
    (FollowHandlers.event session.stores.users userID followeeID),
      action.isFollow = true
  edges : ∀ userID followeeID, session.log.filterMap
      (FollowHandlers.event session.stores.users userID followeeID) ≠ [] ↔
    Edge nodes edges userID followeeID

theorem Registered.followed (hgood : Registered session nodes) :
    Followed session nodes [] where
  told := hgood.told
  users := hgood.users
  follows userID followeeID action hmem := by
    rw [hgood.quiet] at hmem
    cases hmem
  edges userID followeeID := by
    rw [hgood.quiet]
    refine iff_of_false (by simp) ?_
    rintro ⟨i, j, -, -, hmem, -⟩
    cases hmem

theorem Followed.uploadFollow {edges : List (String × String)}
    {env : FollowEnv} (hgood : Followed session nodes edges)
    (hnodes : nodes < 2 ^ 63) (hup : env.Up) (user₀ user₁ : String) :
    Followed (session.serve hashPwd sign machineID
        (uploadFollow env user₀ user₁)) nodes
      (edges ++ [(user₀, user₁)]) := by
  obtain ⟨calls, htold⟩ := hgood.told
  obtain ⟨calls', htold'⟩ := htold.serve hashPwd sign machineID
    (InitSocialGraph.uploadFollow env user₀ user₁)
  have hserved : (FollowHandlers.followHandler session.stores env
      (.ok (followForm user₀ user₁))).2.users = session.stores.users :=
    (FollowHandlers.followHandler_served htold.coherent htold.graph _).users
  have husers : (session.serve hashPwd sign machineID
      (InitSocialGraph.uploadFollow env user₀ user₁)).stores.users =
        session.stores.users := hserved
  have hlog : ∀ userID followeeID, (session.serve hashPwd sign machineID
        (InitSocialGraph.uploadFollow env user₀ user₁)).log.filterMap
          (FollowHandlers.event session.stores.users userID followeeID) =
      session.log.filterMap
          (FollowHandlers.event session.stores.users userID followeeID) ++
        (FollowHandlers.event session.stores.users userID followeeID
          (InitSocialGraph.uploadFollow env user₀ user₁,
            some (FollowHandlers.followHandler session.stores env
              (.ok (followForm user₀ user₁))).1)).toList := by
    intro userID followeeID
    exact List.filterMap_append
  have hevent : ∀ userID followeeID action,
      FollowHandlers.event session.stores.users userID followeeID
          (InitSocialGraph.uploadFollow env user₀ user₁,
            some (FollowHandlers.followHandler session.stores env
              (.ok (followForm user₀ user₁))).1) = some action ↔
        Edge nodes [(user₀, user₁)] userID followeeID ∧
          action = .follow env.now := by
    intro userID followeeID action
    rw [← hgood.users.accepted_iff hnodes,
      ← FollowHandlers.followHandler_isSuccess_iff htold.coherent
        htold.graph hup]
    simp only [FollowHandlers.event, InitSocialGraph.uploadFollow]
    split
    next h => simp [h, eq_comm]
    next h => simp [h]
  refine ⟨⟨calls', htold'⟩, ?_, ?_, ?_⟩
  · rw [husers]
    exact hgood.users
  · intro userID followeeID action hmem
    rw [husers, hlog] at hmem
    rcases List.mem_append.mp hmem with hmem | hmem
    · exact hgood.follows userID followeeID action hmem
    · obtain ⟨-, rfl⟩ := (hevent _ _ _).mp (Option.mem_toList.mp hmem)
      rfl
  · intro userID followeeID
    rw [husers, hlog, edge_concat, ← hgood.edges, Ne,
      List.append_eq_nil_iff, not_and_or]
    refine or_congr Iff.rfl ?_
    rw [Option.toList_eq_nil_iff, ← Ne, Option.ne_none_iff_exists']
    simp only [hevent]
    constructor
    · rintro ⟨_, hedge, _⟩
      exact hedge
    · intro hedge
      exact ⟨_, hedge, rfl⟩

theorem Registered.follow (hgood : Registered session nodes)
    (env : ℕ → FollowEnv) (hup : ∀ i, (env i).Up) (hnodes : nodes < 2 ^ 63)
    (edges : List (String × String)) :
    Followed (session.serveAll hashPwd sign machineID
      (edges.mapIdx fun idx edge =>
        uploadFollow (env idx) edge.1 edge.2)) nodes edges := by
  induction edges using List.reverseRecOn with
  | nil => exact hgood.followed
  | append_singleton edges edge ih =>
      rw [List.mapIdx_concat, Session.serveAll, List.foldl_append]
      exact ih.uploadFollow hashPwd sign machineID hnodes (hup _) edge.1
        edge.2

theorem mem_requested {edges : List (String × String)} {a b : String} :
    (a, b) ∈ requested edges ↔ (a, b) ∈ edges ∨ (b, a) ∈ edges := by
  unfold requested
  simp only [List.mem_flatMap, List.mem_cons, List.not_mem_nil, or_false]
  constructor
  · rintro ⟨edge, hedge, rfl | heq⟩
    · exact .inl hedge
    · rw [Prod.ext_iff] at heq
      obtain ⟨rfl, rfl⟩ : a = edge.2 ∧ b = edge.1 := heq
      exact .inr hedge
  · rintro (hedge | hedge)
    · exact ⟨_, hedge, .inl rfl⟩
    · exact ⟨_, hedge, .inr rfl⟩

/-- An id of the users that the script registers. -/
def IsNode (nodes : ℕ) (userID : Int64) : Prop :=
  1 ≤ userID.toInt ∧ userID.toInt ≤ nodes

theorem edge_iff {edges : List (String × String)}
    (hnodes : nodes < 2 ^ 63) {userID followeeID : Int64} :
    Edge nodes edges userID followeeID ↔
      IsNode nodes userID ∧ IsNode nodes followeeID ∧
        (idText userID, idText followeeID) ∈ edges := by
  have hnode : ∀ {i : ℕ}, 1 ≤ i ∧ i ≤ nodes →
      IsNode nodes (Int64.ofNat i) := by
    rintro i ⟨hpos, hle⟩
    rw [IsNode, Int64.toInt_ofNat_of_lt (by omega)]
    exact ⟨by omega, by omega⟩
  have hexists : ∀ {id : Int64}, IsNode nodes id →
      ∃ i, (1 ≤ i ∧ i ≤ nodes) ∧ id = Int64.ofNat i := by
    rintro id ⟨hpos, hle⟩
    refine ⟨id.toInt.toNat, ⟨by omega, by omega⟩, ?_⟩
    rw [← Int64.toInt_inj, Int64.toInt_ofNat_of_lt (by omega)]
    omega
  constructor
  · rintro ⟨i, j, hi, hj, hmem, rfl, rfl⟩
    rw [idText_ofNat (by omega), idText_ofNat (by omega)]
    exact ⟨hnode hi, hnode hj, hmem⟩
  · rintro ⟨huser, hfollowee, hmem⟩
    obtain ⟨i, hi, rfl⟩ := hexists huser
    obtain ⟨j, hj, rfl⟩ := hexists hfollowee
    rw [idText_ofNat (by omega), idText_ofNat (by omega)] at hmem
    exact ⟨i, j, hi, hj, hmem, rfl, rfl⟩

/-- The first two words of a line are the ids of the users. -/
def Line (edges : List (List String)) (userID followeeID : Int64) : Prop :=
  ∃ edge ∈ edges, edge.take 2 = [idText userID, idText followeeID]

/-- When every line has two words the script asks for all its edges, and then
`GetFollowers` returns the neighbours of a user in the file. -/
theorem init_followers (registerEnv : ℕ → Env) (followEnv : ℕ → FollowEnv)
    (hregister : ∀ i, (registerEnv i).Up) (hfollow : ∀ i, (followEnv i).Up)
    (nodes : ℕ) (hnodes : nodes < 2 ^ 63) (edges : List (List String))
    (hwords : ∀ edge ∈ edges, 2 ≤ edge.length) (followeeID : Int64) :
    ∃ requests session ids, follow followEnv edges = some requests ∧
      Session.initial.serveAll hashPwd sign machineID
        (register registerEnv nodes ++ requests) = session ∧
      SocialGraph.GetFollowers session.stores.graph followeeID =
        (.ok ids, session.stores.graph) ∧ ids.Nodup ∧
      ∀ userID, userID ∈ ids ↔
        IsNode nodes userID ∧ IsNode nodes followeeID ∧
          (Line edges userID followeeID ∨ Line edges followeeID userID) := by
  obtain ⟨pairs, hpairs, hline⟩ := mapM_users hwords
  have hrequests : follow followEnv edges = some ((requested pairs).mapIdx
      fun idx edge => uploadFollow (followEnv idx) edge.1 edge.2) := by
    rw [follow, hpairs]
    rfl
  have hregistered := registered_register hashPwd sign machineID
    registerEnv hregister hnodes
  have hfollowed := hregistered.follow hashPwd sign machineID
    followEnv hfollow hnodes (requested pairs)
  rw [Session.serveAll, Session.serveAll, ← List.foldl_append] at hfollowed
  obtain ⟨calls, htold⟩ := hfollowed.told
  obtain ⟨ids, hget, hnodup, hmem⟩ := htold.followers followeeID
  refine ⟨_, _, ids, hrequests, rfl, hget, hnodup, ?_⟩
  intro userID
  rw [Line, Line, ← hline, ← hline, ← mem_requested, ← edge_iff hnodes,
    ← hfollowed.edges, hmem]
  constructor
  · rintro ⟨timestamp, hlast⟩ hnil
    rw [hnil] at hlast
    cases hlast
  · intro hnonempty
    have hlast := List.getLast?_eq_some_getLast hnonempty
    have hisFollow := hfollowed.follows userID followeeID _
      (List.getLast_mem hnonempty)
    revert hlast hisFollow
    generalize List.getLast _ hnonempty = action
    intro hlast hisFollow
    cases action with
    | follow timestamp => exact ⟨timestamp, hlast⟩
    | unfollow => cases hisFollow

end Load

def sampleEdges : List (List String) :=
  [["2", "1"], ["1", "4", "0.5"], ["3", "x"], ["5", "1"]]

/-- The last two lines do not join two of the four users. -/
theorem init_followers_sample :
    ∃ requests session ids,
      follow (fun _ => FollowHandlers.sampleFollowEnv) sampleEdges =
        some requests ∧
      Session.initial.serveAll UserService.sampleHash sampleSign "a7"
        (register (fun _ => sampleEnv) 4 ++ requests) = session ∧
      SocialGraph.GetFollowers session.stores.graph 1 =
        (.ok ids, session.stores.graph) ∧ 2 ∈ ids ∧ 4 ∈ ids ∧ 3 ∉ ids ∧
      5 ∉ ids := by
  obtain ⟨requests, session, ids, hrequests, hsession, hget, -, hmem⟩ :=
    init_followers UserService.sampleHash sampleSign "a7"
      (fun _ => sampleEnv) (fun _ => FollowHandlers.sampleFollowEnv)
      (fun _ _ => rfl) (fun _ _ => rfl) 4 (by decide) sampleEdges
      (by decide) 1
  refine ⟨requests, session, ids, hrequests, hsession, hget, ?_⟩
  simp only [hmem]
  unfold IsNode Line
  decide

end SocialNetwork.InitSocialGraph
