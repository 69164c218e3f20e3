import Simard.Guards.ReadOnly

/-! The guard of access-control lists, and how the two guards read the short options of
curl. This one takes a cluster of letters apart; the observe-only guard looks at its
beginning. -/
namespace Simard.Guards
open Simard.Library

inductive ShortOpt where
  | method (value : List Char)
  | body
  | none
  deriving DecidableEq

def classifyLetters (next : Option String) : List Char → ShortOpt
  | [] => .none
  | c :: rest =>
      if c = 'X' then
        match rest, next with
        | [], some value => .method (stripQuotes value.toList)
        | [], Option.none => .none
        | _ :: _, _ => .method (stripQuotes rest)
      else if c = 'd' ∨ c = 'F' ∨ c = 'T' then .body
      else classifyLetters next rest

def classifyShortCluster (token : String) (next : Option String) : ShortOpt :=
  match token.toList with
  | '-' :: '-' :: _ => .none
  | '-' :: cluster =>
      if cluster.head? = some 'm' ∨ cluster.head? = some 'b' then .none
      else classifyLetters next cluster
  | _ => .none

/-- A body, or a method other than GET, HEAD and OPTIONS in any case. -/
def ShortOpt.Writes : ShortOpt → Prop
  | .method value => value.map Char.toLower ∉ ["get".toList, "head".toList, "options".toList]
  | .body => True
  | .none => False

instance : (opt : ShortOpt) → Decidable opt.Writes
  | .method _ => inferInstanceAs (Decidable (_ ∉ _))
  | .body => .isTrue trivial
  | .none => .isFalse id

def givesBody (token : String) : Bool :=
  (["-d", "-F", "-T", "--data", "--form"].any fun flag => beginsWith token flag) ||
    ["--upload-file", "--json"].any fun flag => token = flag || beginsWith token (flag ++ "=")

/-- A method option at the beginning of its token, its value being the next token, what
follows an equals sign, or for the short option the rest. -/
def GivesMethod (token : String) (next : Option String) (value : List Char) : Prop :=
  (token ∈ ["-X", "--request"] ∧ next.map String.toList = some value) ∨
    value ≠ [] ∧ ∃ flag ∈ ["-X", "-X=", "--request="], token.toList = flag.toList ++ value

def PlainWrite (args : List String) : Prop :=
  ∃ i token, args[i]? = some token ∧
    (givesBody token = true ∨ ∃ value, GivesMethod token args[i + 1]? value ∧
      isReadMethod value = false)

def ClusteredWrite (args : List String) : Prop :=
  ∃ i token letter rest, args[i]? = some token ∧ token.toList = '-' :: letter :: rest ∧
    letter ∉ ['X', 'd', 'F', 'T'] ∧ (classifyShortCluster token args[i + 1]?).Writes

def SeesWrite (args : List String) : Prop :=
  ∃ i token, args[i]? = some token ∧ (classifyShortCluster token args[i + 1]?).Writes

theorem beginsWith_iff {text beginning : String} :
    beginsWith text beginning = true ↔ ∃ rest, text = beginning ++ rest := by
  unfold beginsWith
  rw [List.isPrefixOf_iff_prefix]
  constructor
  · rintro ⟨rest, hrest⟩
    refine ⟨String.ofList rest, String.toList_injective ?_⟩
    rw [String.toList_append, String.toList_ofList]
    exact hrest.symm
  · rintro ⟨rest, rfl⟩
    rw [String.toList_append]
    exact List.prefix_append _ _

theorem alone_or_longer (text flag : String) :
    (decide (text = flag) ||
      (beginsWith text flag && decide (flag.utf8ByteSize < text.utf8ByteSize))) =
      beginsWith text flag := by
  rw [Bool.eq_iff_iff]
  simp only [Bool.or_eq_true, Bool.and_eq_true, decide_eq_true_eq]
  constructor
  · rintro (rfl | ⟨hbegins, -⟩)
    · exact beginsWith_iff.mpr ⟨"", by simp⟩
    · exact hbegins
  · intro hbegins
    obtain ⟨rest, rfl⟩ := beginsWith_iff.mp hbegins
    by_cases hrest : rest = ""
    · left
      rw [hrest, String.append_empty]
    · right
      refine ⟨hbegins, ?_⟩
      rw [String.utf8ByteSize_append]
      have hsize : rest.utf8ByteSize ≠ 0 := fun h => hrest (String.utf8ByteSize_eq_zero_iff.mp h)
      omega

theorem carriesBody_curl (token : String) : carriesBody .curl token = givesBody token := by
  have hd : (decide (token = "-d") || (beginsWith token "-d" && decide (2 < token.utf8ByteSize))) =
      beginsWith token "-d" := alone_or_longer token "-d"
  have hF : (decide (token = "-F") || (beginsWith token "-F" && decide (2 < token.utf8ByteSize))) =
      beginsWith token "-F" := alone_or_longer token "-F"
  have hT : (decide (token = "-T") || (beginsWith token "-T" && decide (2 < token.utf8ByteSize))) =
      beginsWith token "-T" := alone_or_longer token "-T"
  have hupload : "--upload-file" ++ "=" = "--upload-file=" := by decide
  have hjson : "--json" ++ "=" = "--json=" := by decide
  unfold carriesBody givesBody
  simp only [List.any_cons, List.any_nil, Bool.or_false, hupload, hjson, List.mem_cons,
    List.not_mem_nil, or_false, Bool.decide_or]
  have hshort : ∀ p₁ p₂ p₃ q₁ q₂ q₃ r : Bool, (p₁ || q₁ && r) = q₁ → (p₂ || q₂ && r) = q₂ →
      (p₃ || q₃ && r) = q₃ → (p₁ || (p₂ || p₃) || q₁ && r || q₂ && r || q₃ && r) =
        (q₁ || q₂ || q₃) := by decide
  rw [hshort _ _ _ _ _ _ _ hd hF hT]
  simp only [Bool.or_assoc]

theorem valueAfter_eq_some {beginning token : String} {value : List Char} :
    valueAfter beginning token = some value ↔
      token.toList = beginning.toList ++ value ∧ value ≠ [] := by
  unfold valueAfter
  rw [Option.filter_eq_some_iff, stripPrefix_eq_some, decide_eq_true_eq]

theorem mem_tokenMethods_curl {token : String} {next : Option String} {method : List Char} :
    method ∈ tokenMethods .curl token next ↔
      ∃ value, GivesMethod token next value ∧ method = stripQuotes value := by
  have heq : "-X" ++ "=" = "-X=" := by decide
  have hrequest : "--request" ++ "=" = "--request=" := by decide
  unfold tokenMethods GivesMethod
  simp only [List.mem_append, List.mem_map, List.mem_filterMap, Option.mem_toList, gluedFlag,
    Option.bind_some, valueAfter_eq_some]
  constructor
  · rintro ((hseparate | ⟨value, ⟨flag, hflag, hvalue⟩, rfl⟩) | ⟨value, hvalue, rfl⟩)
    · split at hseparate
      next htoken =>
        cases next with
        | none => cases hseparate
        | some value =>
          exact ⟨value.toList, .inl ⟨htoken, rfl⟩, List.mem_singleton.mp hseparate⟩
      next => cases hseparate
    · refine ⟨value, .inr ⟨hvalue.2, flag ++ "=", ?_, hvalue.1⟩, rfl⟩
      rcases List.mem_cons.mp hflag with rfl | hrest
      · simp [heq]
      · rw [List.mem_singleton.mp hrest]
        simp [hrequest]
    · exact ⟨value, .inr ⟨hvalue.2, "-X", List.mem_cons_self, hvalue.1⟩, rfl⟩
  · rintro ⟨value, (⟨htoken, hnext⟩ | ⟨hvalue, flag, hflag, htoken⟩), rfl⟩
    · refine .inl (.inl ?_)
      obtain ⟨text, rfl, rfl⟩ := Option.map_eq_some_iff.mp hnext
      have hflag : token ∈ methodFlags .curl := htoken
      rw [if_pos hflag]
      exact List.mem_singleton.mpr rfl
    · simp only [List.mem_cons, List.not_mem_nil, or_false] at hflag
      rcases hflag with rfl | rfl | rfl
      · exact .inr ⟨value, ⟨htoken, hvalue⟩, rfl⟩
      · exact .inl
          (.inr ⟨value, ⟨"-X", List.mem_cons_self, by rw [heq]; exact ⟨htoken, hvalue⟩⟩, rfl⟩)
      · exact .inl (.inr ⟨value,
          ⟨"--request", by simp [methodFlags], by rw [hrequest]; exact ⟨htoken, hvalue⟩⟩, rfl⟩)

theorem mem_httpMethods {dialect : HttpDialect} {args : List String} {method : List Char} :
    method ∈ httpMethods dialect args ↔
      ∃ i token, args[i]? = some token ∧ method ∈ tokenMethods dialect token args[i + 1]? := by
  induction args with
  | nil => simp [httpMethods]
  | cons first rest ih =>
    rw [httpMethods, List.mem_append, ih]
    constructor
    · rintro (hfirst | ⟨i, token, htoken, hmethod⟩)
      · exact ⟨0, first, rfl, by simpa [List.head?_eq_getElem?] using hfirst⟩
      · exact ⟨i + 1, token, by simpa using htoken, by simpa using hmethod⟩
    · rintro ⟨i, token, htoken, hmethod⟩
      cases i with
      | zero =>
        left
        rw [List.getElem?_cons_zero, Option.some.injEq] at htoken
        subst htoken
        simpa [List.head?_eq_getElem?] using hmethod
      | succ i => exact .inr ⟨i, token, by simpa using htoken, by simpa using hmethod⟩

theorem isReadMethod_stripQuotes (value : List Char) :
    isReadMethod (stripQuotes value) = isReadMethod value := by
  unfold isReadMethod stripQuotes
  rw [trimMatches_idempotent]

theorem httpIsRead_curl (args : List String) :
    httpIsRead args .curl = false ↔ PlainWrite args := by
  unfold httpIsRead httpCarriesBody PlainWrite
  rw [Bool.and_eq_false_iff, Bool.not_eq_false', List.any_eq_true, List.all_eq_false]
  constructor
  · rintro (⟨token, htoken, hbody⟩ | ⟨method, hmethod, hwrite⟩)
    · obtain ⟨i, hi⟩ := List.mem_iff_getElem?.mp htoken
      exact ⟨i, token, hi, .inl (carriesBody_curl token ▸ hbody)⟩
    · obtain ⟨i, token, hi, hgiven⟩ := mem_httpMethods.mp hmethod
      obtain ⟨value, hvalue, rfl⟩ := mem_tokenMethods_curl.mp hgiven
      rw [isReadMethod_stripQuotes] at hwrite
      exact ⟨i, token, hi, .inr ⟨value, hvalue, Bool.eq_false_iff.mpr hwrite⟩⟩
  · rintro ⟨i, token, hi, hbody | ⟨value, hvalue, hwrite⟩⟩
    · exact .inl ⟨token, List.mem_of_getElem? hi, by rw [carriesBody_curl]; exact hbody⟩
    · refine .inr ⟨stripQuotes value, mem_httpMethods.mpr ⟨i, token, hi, ?_⟩, ?_⟩
      · exact mem_tokenMethods_curl.mpr ⟨value, hvalue, rfl⟩
      · rw [isReadMethod_stripQuotes, hwrite]
        exact Bool.false_ne_true

theorem classifyLetters_cons {next : Option String} {letter : Char} {rest : List Char}
    (h : (classifyLetters next (letter :: rest)).Writes) :
    (letter = 'd' ∨ letter = 'F' ∨ letter = 'T') ∨
      (letter = 'X' ∧ ∃ value, isReadMethod value = false ∧
        (rest = [] ∧ next.map String.toList = some value ∨ rest ≠ [] ∧ rest = value)) ∨
      letter ∉ ['X', 'd', 'F', 'T'] := by
  have hread {value : List Char} (hwrites : (ShortOpt.method (stripQuotes value)).Writes) :
      isReadMethod value = false := decide_eq_false hwrites
  unfold classifyLetters at h
  split at h
  next hX =>
    refine .inr (.inl ⟨hX, ?_⟩)
    cases rest with
    | nil =>
      cases next with
      | none => exact h.elim
      | some value => exact ⟨value.toList, hread h, .inl ⟨rfl, rfl⟩⟩
    | cons c more => exact ⟨c :: more, hread h, .inr ⟨nofun, rfl⟩⟩
  next hX =>
    split at h
    next hbody => exact .inl hbody
    next hbody =>
      refine .inr (.inr ?_)
      simp only [List.mem_cons, List.not_mem_nil, or_false]
      tauto

theorem plain_or_clustered {args : List String} (h : SeesWrite args) :
    PlainWrite args ∨ ClusteredWrite args := by
  obtain ⟨i, token, hi, hwrites⟩ := h
  have hcluster := hwrites
  unfold classifyShortCluster at hcluster
  split at hcluster
  next => exact hcluster.elim
  next cluster hdash htoken =>
    split at hcluster
    next => exact hcluster.elim
    next =>
      cases cluster with
      | nil => exact hcluster.elim
      | cons letter rest =>
        have hbegins (flag : String) (hflag : flag.toList = ['-', letter]) :
            beginsWith token flag = true := by
          unfold beginsWith
          rw [htoken, hflag]
          simp
        rcases classifyLetters_cons hcluster with hbody | ⟨rfl, value, hwrite, hvalue⟩ | hother
        · refine .inl ⟨i, token, hi, .inl ?_⟩
          unfold givesBody
          rcases hbody with rfl | rfl | rfl
          · simp [hbegins "-d" rfl]
          · simp [hbegins "-F" rfl]
          · simp [hbegins "-T" rfl]
        · refine .inl ⟨i, token, hi, .inr ⟨value, ?_, hwrite⟩⟩
          rcases hvalue with ⟨rfl, hnext⟩ | ⟨hrest, rfl⟩
          · refine .inl ⟨?_, hnext⟩
            have hsame : token = "-X" := String.toList_injective htoken
            rw [hsame]
            exact List.mem_cons_self
          · exact .inr ⟨hrest, "-X", List.mem_cons_self, htoken⟩
        · exact .inr ⟨i, token, letter, rest, hi, htoken, hother, hwrites⟩
  next => exact hcluster.elim

theorem commandIsRead_curl {tool : String} (h : baseName tool = "curl") (args : List String) :
    commandIsRead (tool :: args) = some (httpIsRead args .curl) := by
  rw [commandIsRead, h]
  rfl

/-- The observe-only guard refuses every curl command in which the access-control guard
sees a write, exactly where a write behind other letters comes with one that stands by
itself. -/
theorem curl_writes_refused_iff (tool : String) (htool : baseName tool = "curl")
    (args : List String) :
    (SeesWrite args → commandIsRead (tool :: args) = some false) ↔
      (ClusteredWrite args → PlainWrite args) := by
  rw [commandIsRead_curl htool, Option.some.injEq, httpIsRead_curl]
  constructor
  · rintro h ⟨i, token, -, -, hi, -, -, hwrites⟩
    exact h ⟨i, token, hi, hwrites⟩
  · intro h hsees
    rcases plain_or_clustered hsees with hplain | hclustered
    · exact hplain
    · exact h hclustered

theorem separate_put_refused :
    baseName "/usr/bin/curl" = "curl" ∧
      commandIsRead ["/usr/bin/curl", "-s", "-X", "PUT", "https://host/item"] = some false := by
  have hsees : SeesWrite ["-s", "-X", "PUT", "https://host/item"] :=
    ⟨1, "-X", rfl, by decide⟩
  have hplain : PlainWrite ["-s", "-X", "PUT", "https://host/item"] :=
    ⟨1, "-X", rfl, .inr ⟨"PUT".toList, .inl ⟨by decide, rfl⟩, by decide⟩⟩
  have hbase : baseName "/usr/bin/curl" = "curl" := by decide
  exact ⟨hbase, (curl_writes_refused_iff _ hbase _).mpr (fun _ => hplain) hsees⟩

/-- The same PUT with the option in one cluster passes. -/
theorem clustered_put_passes :
    SeesWrite ["-sXPUT", "https://host/item"] ∧
      commandIsRead ["curl", "-sXPUT", "https://host/item"] = some true := by
  refine ⟨⟨0, "-sXPUT", rfl, ?_⟩, ?_⟩ <;> decide

end Simard.Guards
