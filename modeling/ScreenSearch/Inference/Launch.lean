import ScreenSearch.Inference.Models
import ScreenSearch.Lib.CommandLine
import ScreenSearch.Lib.Text

/-!
# Launching the sidecar

The arguments are written into one command line, which the sidecar takes apart again; which
tuning flags are among them is read off the help text of the binary.

Main results:

* `received_buildCommandLine` — a process gets exactly the arguments it was started with,
  whatever blanks, quotes and backslashes are in them;
* `sidecar_launch` — the sidecar gets what its specification says, with no flag that its help
  text does not have, and a quantized cache only with flash attention.
-/

namespace ScreenSearch.Inference

open CommandLine

/-! ## The command line -/

/-- The loop over an argument; `backslashes` are held back until it is known what follows. -/
def quoteBody : Nat → List Char → List Char
  | backslashes, [] => List.replicate (backslashes * 2) '\\' ++ ['"']
  | backslashes, c :: chars =>
    if c = '\\' then quoteBody (backslashes + 1) chars
    else if c = '"' then
      List.replicate (backslashes * 2 + 1) '\\' ++ '"' :: quoteBody 0 chars
    else List.replicate backslashes '\\' ++ c :: quoteBody 0 chars

def needsQuotes (c : Char) : Bool := c == ' ' || c == '\t' || c == '"'

/-- `quote_arg`. -/
def quoteArg (arg : String) : List Char :=
  if !arg.isEmpty && !arg.toList.any needsQuotes then arg.toList
  else '"' :: quoteBody 0 arg.toList

/-- The text ends with a NUL. -/
def buildCommandLine (program : String) (args : List String) : List Char :=
  quoteArg program ++ args.flatMap (fun arg => ' ' :: quoteArg arg) ++ ['\x00']

/-- What the process that is started reads. -/
def received (line : List Char) : List String :=
  (argv (line.takeWhile (· ≠ '\x00'))).map String.ofList

/-- What is written inside of quotes is read back. -/
theorem read_quoteBody (chars : List Char) : ∀ (n : Nat) (begun rest : List Char),
    read (some begun) 0 .inside (quoteBody n chars ++ rest) =
      read (some (begun ++ List.replicate n '\\' ++ chars)) 0 .closed rest := by
  induction chars with
  | nil =>
    intro n begun rest
    -- before the closing quote the slashes come in pairs
    rw [quoteBody, List.append_assoc, read_slashes rfl, Nat.zero_add, List.singleton_append,
      read_close, List.append_nil]
    rfl
  | cons c chars ih =>
    intro n begun rest
    unfold quoteBody
    split
    · next hSlash =>
      subst hSlash
      -- one more slash is held back
      rw [ih, List.replicate_succ', List.append_assoc, List.append_assoc, List.append_assoc]
      rfl
    split
    · next hQuote =>
      subst hQuote
      -- the pairs are slashes, and the odd one makes the quote a letter
      rw [List.append_assoc, List.cons_append, read_slashes rfl, Nat.zero_add, read_literal]
      show read (some (begun ++ List.replicate n '\\' ++ ['"'])) 0 .inside _ = _
      rw [ih]
      simp
    · next hSlash hQuote =>
      -- no quote follows: each slash stands for itself
      rw [List.append_assoc, List.cons_append, read_slashes rfl, Nat.zero_add,
        read_char hSlash hQuote fun _ => rfl]
      show read (some (begun ++ List.replicate n '\\' ++ [c])) 0 .inside _ = _
      rw [ih]
      simp

/-- What needs no quotes is itself. -/
theorem read_plain {chars : List Char} (hPlain : ∀ c ∈ chars, needsQuotes c = false)
    {rest : List Char} (hStops : Stops rest) : ∀ (arg : Option (List Char)) (n : Nat),
      (arg.isSome = true ∨ 0 < n ∨ chars ≠ []) →
      read arg n .outside (chars ++ rest) =
        (arg.getD [] ++ List.replicate n '\\' ++ chars) :: read none 0 .outside rest := by
  induction chars with
  | nil =>
    intro arg n hSome
    have hEnded : (arg.isSome || decide (0 < n)) = true := by simpa using hSome
    rw [List.nil_append, read_stops hStops (by decide), ended, if_pos hEnded, List.append_nil]
    rfl
  | cons c chars ih =>
    intro arg n _
    have hHere := hPlain c List.mem_cons_self
    have hRest := ih fun c hc => hPlain c (List.mem_cons_of_mem _ hc)
    by_cases hSlash : c = '\\'
    · subst hSlash
      rw [List.cons_append, read_slash]
      show read arg (n + 1) .outside _ = _
      rw [hRest arg (n + 1) (.inr (.inl (Nat.succ_pos n))), List.replicate_succ',
        ← List.append_assoc, List.append_assoc _ ['\\']]
      rfl
    · simp only [needsQuotes, Bool.or_eq_false_iff, beq_eq_false_iff_ne, ne_eq] at hHere
      have hBlank : isBlank c = true → Mode.outside = .inside := by
        intro hBlank
        simp only [isBlank, Bool.or_eq_true, beq_iff_eq] at hBlank
        rcases hBlank with hBlank | hBlank
        · exact absurd hBlank hHere.1.1
        · exact absurd hBlank hHere.1.2
      rw [List.cons_append, read_char hSlash hHere.2 hBlank]
      show read (some _) 0 .outside _ = _
      rw [hRest (some _) 0 (.inl rfl)]
      simp

/-- **An argument is read back**, whatever is in it. -/
theorem read_quoteArg (arg : String) {rest : List Char} (hStops : Stops rest) :
    read none 0 .outside (quoteArg arg ++ rest) = arg.toList :: read none 0 .outside rest := by
  unfold quoteArg
  split
  · next hPlain =>
    simp only [Bool.and_eq_true, Bool.not_eq_true', List.any_eq_false] at hPlain
    obtain ⟨hSome, hPlain⟩ := hPlain
    have hNonempty : arg.toList ≠ [] := by
      intro hNil
      rw [String.toList_eq_nil_iff] at hNil
      subst hNil
      exact absurd hSome (by decide)
    rw [read_plain (fun c hc => Bool.eq_false_iff.mpr (hPlain c hc)) hStops none 0
      (.inr (.inr hNonempty))]
    rfl
  · rw [List.cons_append, read_open, read_quoteBody, read_stops hStops (by decide)]
    simp [ended]

theorem read_args (args : List String) :
    read none 0 .outside (args.flatMap fun arg => ' ' :: quoteArg arg) =
      args.map String.toList := by
  induction args with
  | nil => rfl
  | cons arg args ih =>
    have hStops : Stops (args.flatMap fun arg => ' ' :: quoteArg arg) := by
      rcases args with - | ⟨next, args⟩
      · exact .inl rfl
      · exact .inr ⟨' ', _, rfl, rfl⟩
    rw [List.flatMap_cons, List.cons_append, read_blank rfl (by decide), read_quoteArg arg hStops, ih]
    rfl

/-- Quoting writes nothing new but quotes and backslashes. -/
theorem mem_quoteBody {x : Char} (chars : List Char) : ∀ n, x ∈ quoteBody n chars →
    x = '\\' ∨ x = '"' ∨ x ∈ chars := by
  induction chars with
  | nil =>
    intro n hx
    rw [quoteBody, List.mem_append, List.mem_replicate, List.mem_singleton] at hx
    rcases hx with ⟨-, hx⟩ | hx
    · exact .inl hx
    · exact .inr (.inl hx)
  | cons c chars ih =>
    intro n hx
    have hLater : ∀ m, x ∈ quoteBody m chars → x = '\\' ∨ x = '"' ∨ x ∈ c :: chars := by
      intro m hIn
      rcases ih m hIn with hSlash | hQuote | hIn
      · exact .inl hSlash
      · exact .inr (.inl hQuote)
      · exact .inr (.inr (List.mem_cons_of_mem _ hIn))
    unfold quoteBody at hx
    split at hx
    · exact hLater _ hx
    split at hx <;> rw [List.mem_append, List.mem_replicate, List.mem_cons] at hx
    · rcases hx with ⟨-, hx⟩ | hx | hx
      · exact .inl hx
      · exact .inr (.inl hx)
      · exact hLater _ hx
    · rcases hx with ⟨-, hx⟩ | rfl | hx
      · exact .inl hx
      · exact .inr (.inr List.mem_cons_self)
      · exact hLater _ hx

theorem quoteArg_noNul {arg : String} (h : '\x00' ∉ arg.toList) : '\x00' ∉ quoteArg arg := by
  unfold quoteArg
  split
  · exact h
  · intro hIn
    rcases List.mem_cons.mp hIn with hQuote | hIn
    · exact absurd hQuote (by decide)
    · rcases mem_quoteBody _ _ hIn with hSlash | hQuote | hIn
      · exact absurd hSlash (by decide)
      · exact absurd hQuote (by decide)
      · exact h hIn

/-- The path of a program: Windows has no quote in one, and a file does not end like a folder. -/
structure ProgramPath (program : String) : Prop where
  noQuote : '"' ∉ program.toList
  noFolder : program.toList.getLast? ≠ some '\\'
  noNul : '\x00' ∉ program.toList

/-- The loop over a path without quotes changes nothing. -/
theorem quoteBody_path (chars : List Char) : ∀ n, '"' ∉ chars → chars.getLast? ≠ some '\\' →
    (chars = [] → n = 0) → quoteBody n chars = List.replicate n '\\' ++ chars ++ ['"'] := by
  induction chars with
  | nil =>
    intro n _ _ hZero
    rw [hZero rfl]
    rfl
  | cons c chars ih =>
    intro n hQuote hLast _
    have hLast' : chars.getLast? ≠ some '\\' := by
      rcases chars with - | ⟨d, chars⟩
      · exact fun h => by cases h
      · rwa [List.getLast?_cons_cons] at hLast
    have hQuote' : '"' ∉ chars := fun hIn => hQuote (List.mem_cons_of_mem _ hIn)
    unfold quoteBody
    split
    · next hSlash =>
      subst hSlash
      -- a slash at the end would be doubled; there is none
      have hSome : chars ≠ [] := by
        rintro rfl
        exact hLast rfl
      rw [ih _ hQuote' hLast' fun hNil => absurd hNil hSome, List.replicate_succ']
      simp
    split
    · next hHere =>
      subst hHere
      exact absurd List.mem_cons_self hQuote
    · rw [ih 0 hQuote' hLast' fun _ => rfl]
      simp

/-- The name of the program is read back. -/
theorem program_quoteArg {name : String} (h : ProgramPath name) {rest : List Char}
    (hStops : Stops rest) :
    CommandLine.program (quoteArg name ++ rest) = (name.toList, rest) := by
  unfold quoteArg
  split
  · next hPlain =>
    simp only [Bool.and_eq_true, Bool.not_eq_true', List.any_eq_false] at hPlain
    obtain ⟨hSome, hPlain⟩ := hPlain
    -- without quotes the name ends at the first blank
    have hWord : ∀ c ∈ name.toList, (!isBlank c) = true := by
      intro c hc
      have := hPlain c hc
      simp only [needsQuotes, isBlank, Bool.or_eq_true, beq_iff_eq, not_or] at this ⊢
      simp [this.1.1, this.1.2]
    have hTake : (name.toList ++ rest).takeWhile (fun c => !isBlank c) = name.toList := by
      rw [List.takeWhile_append_of_pos hWord]
      rcases hStops with rfl | ⟨c, later, rfl, hBlank⟩
      · simp
      · simp [hBlank]
    have hDrop : (name.toList ++ rest).dropWhile (fun c => !isBlank c) = rest := by
      rw [List.dropWhile_append_of_pos hWord]
      rcases hStops with rfl | ⟨c, later, rfl, hBlank⟩
      · rfl
      · simp [hBlank]
    unfold CommandLine.program
    split
    · next after hEq =>
      rcases hName : name.toList with - | ⟨c, chars⟩
      · rw [String.toList_eq_nil_iff] at hName
        subst hName
        exact absurd hSome (by decide)
      · rw [hName] at hEq
        obtain rfl := (List.cons.inj hEq).1
        exact absurd (by rw [hName]; exact List.mem_cons_self) h.noQuote
    · rw [hTake, hDrop]
  · -- in quotes it ends at the next one, and slashes mean nothing
    have hOther : ∀ c ∈ name.toList, (decide (c ≠ '"')) = true := by
      intro c hc
      rw [decide_eq_true_eq]
      rintro rfl
      exact h.noQuote hc
    rw [quoteBody_path name.toList 0 h.noQuote h.noFolder fun _ => rfl, List.cons_append,
      CommandLine.program]
    simp only [List.replicate_zero, List.nil_append, List.append_assoc, List.singleton_append]
    rw [List.takeWhile_append_of_pos hOther, List.dropWhile_append_of_pos hOther]
    simp

/-- **A process gets the arguments it was started with.** -/
theorem received_buildCommandLine {program : String} (hProgram : ProgramPath program)
    {args : List String} (hArgs : ∀ arg ∈ args, '\x00' ∉ arg.toList) :
    received (buildCommandLine program args) = program :: args := by
  have hText : '\x00' ∉ quoteArg program ++ args.flatMap fun arg => ' ' :: quoteArg arg := by
    rw [List.mem_append, not_or]
    refine ⟨quoteArg_noNul hProgram.noNul, fun hIn => ?_⟩
    obtain ⟨arg, hArg, hIn⟩ := List.mem_flatMap.mp hIn
    rcases List.mem_cons.mp hIn with hBlank | hIn
    · exact absurd hBlank (by decide)
    · exact quoteArg_noNul (hArgs arg hArg) hIn
  -- so the line ends where it should, at its terminator
  have hOther : ∀ c ∈ quoteArg program ++ args.flatMap fun arg => ' ' :: quoteArg arg,
      decide (c ≠ '\x00') = true := by
    intro c hc
    rw [decide_eq_true_eq]
    rintro rfl
    exact hText hc
  have hStops : Stops (args.flatMap fun arg => ' ' :: quoteArg arg) := by
    rcases args with - | ⟨next, args⟩
    · exact .inl rfl
    · exact .inr ⟨' ', _, rfl, rfl⟩
  unfold received buildCommandLine
  rw [List.takeWhile_append_of_pos hOther, List.takeWhile_cons_of_neg (by decide), List.append_nil,
    argv, program_quoteArg hProgram hStops, read_args, List.map_cons, String.ofList_toList,
    List.map_map]
  congr 1
  exact (List.map_congr_left fun arg _ => String.ofList_toList).trans (List.map_id _)

/-! ## The flags of the binary -/

def valueHints : List String := ["\x7bon", "[on", "<on", "(on", "on,off", "on|off", "on/off"]

/-- The line of the newer spelling, which takes a value. -/
def flashLineTakesValue (line : String) : Bool := valueHints.any (Text.contains line)

def parseCaps (help : String) : SidecarCaps where
  ctxSize := Text.contains help "--ctx-size"
  cacheTypeK := Text.contains help "--cache-type-k"
  cacheTypeV := Text.contains help "--cache-type-v"
  flashAttnKind :=
    if !Text.contains help "--flash-attn" then .unsupported
    else if ((Text.lines help).filter fun line => Text.contains line "--flash-attn").any
      flashLineTakesValue then .enumOnOffAuto
    else .boolFlag

/-- The arguments that every binary has. -/
def baseArgs (spec : ModelSpec) (port : Nat) : List String :=
  ["--model", pathText spec.ggufPath, "--host", "127.0.0.1", "--port", port.repr,
    "-ngl", spec.ngl.repr] ++
  (spec.mmprojPath.elim [] fun mmproj => ["--mmproj", pathText mmproj]) ++
  (spec.device.elim [] fun device => ["--device", device])

/-- The ones that save memory. -/
def tuningArgs (spec : ModelSpec) (caps : SidecarCaps) : List String :=
  (if caps.ctxSize then ["--ctx-size", spec.ctxSize.repr] else []) ++
  (pushFlashAttn caps.flashAttnKind spec.flashAttn).1 ++
  pushKvCache caps spec.kvCacheType (pushFlashAttn caps.flashAttnKind spec.flashAttn).2

theorem buildArgs_eq (spec : ModelSpec) (port : Nat) (caps : SidecarCaps) :
    buildArgs spec port caps = baseArgs spec port ++ tuningArgs spec caps := by
  simp only [buildArgs, baseArgs, tuningArgs, List.append_assoc]

def cacheFlags : List String := ["--cache-type-k", "--cache-type-v"]

def tuningFlags : List String := ["--ctx-size", "--flash-attn"] ++ cacheFlags

/-- No number is spelled like a flag. -/
theorem repr_ne_flag {n : Nat} {flag : String} (h : flag ∈ tuningFlags) : flag ≠ n.repr := by
  rintro rfl
  have hDigits : n.repr.toList.all Char.isDigit = true := by
    rw [Nat.toList_repr]
    exact List.all_eq_true.mpr fun _ hc =>
      Nat.isDigit_of_mem_toDigits (by decide) (by decide) hc
  simp only [tuningFlags, cacheFlags, List.cons_append, List.nil_append, List.mem_cons,
    List.not_mem_nil, or_false] at h
  rcases h with h | h | h | h <;> rw [h] at hDigits <;> exact absurd hDigits (by decide)

theorem pushFlashAttn_flags {kind : FlashAttnKind} {setting : FlashAttnSetting} :
    (∀ flag ∈ tuningFlags, flag ∈ (pushFlashAttn kind setting).1 →
      flag = "--flash-attn" ∧ kind ≠ .unsupported) ∧
    ((pushFlashAttn kind setting).2 = .active →
      "--flash-attn" ∈ (pushFlashAttn kind setting).1 ∧
        "off" ∉ (pushFlashAttn kind setting).1) := by
  rcases kind <;> rcases setting <;>
    simp [pushFlashAttn, tuningFlags, cacheFlags]

theorem pushKvCache_flags {caps : SidecarCaps} {kv : KvCacheType} {flash : FlashState}
    {arg : String} (h : arg ∈ pushKvCache caps kv flash) :
    flash = .active ∧ arg ≠ "off" ∧ (arg ∈ tuningFlags →
      (arg = "--cache-type-k" ∧ caps.cacheTypeK = true) ∨
        (arg = "--cache-type-v" ∧ caps.cacheTypeV = true)) := by
  unfold pushKvCache at h
  split at h
  · cases h
  · next hActive =>
    simp only [Bool.or_eq_true, decide_eq_true_eq, not_or, not_not] at hActive
    have hKv : kv.asArg ≠ "off" ∧ kv.asArg ∉ tuningFlags := by rcases kv <;> decide
    have hPair : ∀ {has : Bool} {flag : String}, arg ∈ (if has then [flag, kv.asArg] else []) →
        has = true ∧ (arg = flag ∨ arg = kv.asArg) := by
      intro has flag hArg
      split at hArg
      · next hHas => exact ⟨hHas, by simpa using hArg⟩
      · cases hArg
    refine ⟨hActive.2, ?_⟩
    rcases List.mem_append.mp h with hArg | hArg
    · obtain ⟨hHas, rfl | rfl⟩ := hPair hArg
      · exact ⟨by decide, fun _ => .inl ⟨rfl, hHas⟩⟩
      · exact ⟨hKv.1, fun hFlag => absurd hFlag hKv.2⟩
    · obtain ⟨hHas, rfl | rfl⟩ := hPair hArg
      · exact ⟨by decide, fun _ => .inr ⟨rfl, hHas⟩⟩
      · exact ⟨hKv.1, fun hFlag => absurd hFlag hKv.2⟩

theorem flashAttnKind_unsupported {help : String}
    (h : (parseCaps help).flashAttnKind ≠ .unsupported) :
    Text.contains help "--flash-attn" = true := by
  by_contra hNone
  refine h (if_pos ?_)
  rw [Bool.not_eq_true] at hNone
  rw [hNone]
  rfl

/-- Only flags that the help text has, and a quantized cache only with flash attention. -/
theorem tuningArgs_flags (spec : ModelSpec) (help : String) :
    (∀ flag ∈ tuningFlags, flag ∈ tuningArgs spec (parseCaps help) →
      Text.contains help flag = true) ∧
    ∀ flag ∈ cacheFlags, flag ∈ tuningArgs spec (parseCaps help) →
      "--flash-attn" ∈ tuningArgs spec (parseCaps help) ∧
        "off" ∉ tuningArgs spec (parseCaps help) := by
  obtain ⟨hFlash, hActive⟩ := @pushFlashAttn_flags (parseCaps help).flashAttnKind spec.flashAttn
  have hCtx : ∀ arg, arg ∈ (if (parseCaps help).ctxSize then ["--ctx-size", spec.ctxSize.repr]
      else []) → (parseCaps help).ctxSize = true ∧ (arg = "--ctx-size" ∨ arg = spec.ctxSize.repr) := by
    intro arg hArg
    split at hArg
    · next hSome => exact ⟨hSome, by simpa using hArg⟩
    · cases hArg
  constructor
  · intro flag hFlag hIn
    unfold tuningArgs at hIn
    rw [List.mem_append, List.mem_append] at hIn
    rcases hIn with (hIn | hIn) | hIn
    · obtain ⟨hSome, rfl | rfl⟩ := hCtx flag hIn
      · exact hSome
      · exact absurd rfl (repr_ne_flag hFlag)
    · obtain ⟨rfl, hKind⟩ := hFlash flag hFlag hIn
      exact flashAttnKind_unsupported hKind
    · rcases (pushKvCache_flags hIn).2.2 hFlag with ⟨rfl, hSome⟩ | ⟨rfl, hSome⟩ <;> exact hSome
  · intro flag hCache hIn
    have hFlag : flag ∈ tuningFlags := List.mem_append_right _ hCache
    have hKv : flag ∈ pushKvCache (parseCaps help) spec.kvCacheType
        (pushFlashAttn (parseCaps help).flashAttnKind spec.flashAttn).2 := by
      unfold tuningArgs at hIn
      rw [List.mem_append, List.mem_append] at hIn
      rcases hIn with (hIn | hIn) | hIn
      · obtain ⟨-, rfl | rfl⟩ := hCtx flag hIn
        · exact absurd hCache (by decide)
        · exact absurd rfl (repr_ne_flag hFlag)
      · obtain ⟨rfl, -⟩ := hFlash flag hFlag hIn
        exact absurd hCache (by decide)
      · exact hIn
    -- the cache flags come only behind active flash attention
    obtain ⟨hIn', hOff⟩ := hActive (pushKvCache_flags hKv).1
    unfold tuningArgs
    refine ⟨List.mem_append_left _ (List.mem_append_right _ hIn'), ?_⟩
    rw [List.mem_append, List.mem_append]
    rintro ((hArg | hArg) | hArg)
    · obtain ⟨-, hArg | hArg⟩ := hCtx _ hArg
      · exact absurd hArg (by decide)
      · -- a size is written in digits
        have hDigits : ("off".toList.all Char.isDigit) = true := by
          rw [hArg, Nat.toList_repr]
          exact List.all_eq_true.mpr fun _ hc =>
            Nat.isDigit_of_mem_toDigits (by decide) (by decide) hc
        exact absurd hDigits (by decide)
    · exact hOff hArg
    · exact (pushKvCache_flags hArg).2.1 rfl

/-- **What the sidecar is started with** is what it gets: its base arguments and then the tuning
ones, of which each flag is in the binary's help text and a quantized cache comes with flash
attention that is on. -/
theorem sidecar_launch {binary : String} (hBinary : ProgramPath binary) (spec : ModelSpec)
    (port : Nat) (help : String)
    (hArgs : ∀ arg ∈ buildArgs spec port (parseCaps help), '\x00' ∉ arg.toList) :
    received (buildCommandLine binary (buildArgs spec port (parseCaps help))) =
        binary :: (baseArgs spec port ++ tuningArgs spec (parseCaps help)) ∧
      (∀ flag ∈ tuningFlags, flag ∈ tuningArgs spec (parseCaps help) →
        Text.contains help flag = true) ∧
      ∀ flag ∈ cacheFlags, flag ∈ tuningArgs spec (parseCaps help) →
        "--flash-attn" ∈ tuningArgs spec (parseCaps help) ∧
          "off" ∉ tuningArgs spec (parseCaps help) := by
  rw [received_buildCommandLine hBinary hArgs, buildArgs_eq]
  exact ⟨rfl, tuningArgs_flags spec help⟩

/-- A model in a folder with a blank, on a device with a quote in its name. -/
def quotedSpec : ModelSpec where
  lane := .answer
  tier := .default
  ggufPath := ["C:", "my models", "m.gguf"]
  mmprojPath := none
  ngl := 99
  device := some "Vulkan\\\"0\\"
  ctxSize := 4096
  kvCacheType := .q8_0
  flashAttn := .auto

theorem sidecar_launch_quotedSpec :
    received (buildCommandLine "C:\\Program Files\\llama-server.exe" (buildArgs quotedSpec 8080
        (parseCaps "--flash-attn {on,off,auto}\n--cache-type-v TYPE"))) =
      "C:\\Program Files\\llama-server.exe" ::
        (baseArgs quotedSpec 8080 ++ ["--flash-attn", "auto", "--cache-type-v", "q8_0"]) := by
  have hArgs : ((buildArgs quotedSpec 8080
      (parseCaps "--flash-attn {on,off,auto}\n--cache-type-v TYPE")).all fun arg =>
        arg.toList.all (· ≠ '\x00')) = true := by decide +kernel
  have hNoNul := List.all_eq_true.mp hArgs
  refine (sidecar_launch ⟨by decide +kernel, by decide +kernel, by decide +kernel⟩ quotedSpec 8080
    _ fun arg hArg hIn => ?_).1.trans (by decide +kernel)
  exact absurd (List.all_eq_true.mp (hNoNul arg hArg) _ hIn) (by decide)

end ScreenSearch.Inference
