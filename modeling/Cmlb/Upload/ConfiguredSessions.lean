import Cmlb.Core.Configuration
import Cmlb.Upload.ChunkClaims

/-!
# Sessions under a configuration that was accepted

`validate` bounds `chunk_size` and `parallel_chunks_per_file` for `upload_resumable`. With those bounds
its counters hold up to the largest file that 2^31 blocks and the workers allow, whatever the document and
the environment say (`accepted_sessions`).
-/

namespace Cmlb.Upload.GoogleDrive

open Cmlb.Configuration

/-- The session that `upload_resumable` runs for a file of `total` bytes. -/
def session (cfg : GoogleDriveConfig) (json : JsonLib) (path : Path) (file : Nat → UInt8) (total : Nat) :
    Resumable :=
  ⟨json, path, file, total, cfg.chunkSize, cfg.parallelChunksPerFile, cfg.maxRetries⟩

/-- What `validate` asks of the chunks. -/
structure Chunked (cfg : GoogleDriveConfig) : Prop where
  min_le : kResumableAlignment ≤ cfg.chunkSize
  le_max : cfg.chunkSize ≤ kMaxChunk
  blocks : kResumableAlignment ∣ cfg.chunkSize
  workers : 1 ≤ cfg.parallelChunksPerFile ∧ cfg.parallelChunksPerFile ≤ 64

variable {cfg : GoogleDriveConfig} {json : JsonLib} {path : Path} {file : Nat → UInt8} {total : Nat}

theorem of_check {bad : Prop} [Decidable bad] {message : String} (h : check bad message = []) : ¬bad := by
  intro hbad
  unfold check at h
  rw [if_pos hbad] at h
  cases h

theorem chunked_of_validate (h : validateGoogleDrive cfg = []) : Chunked cfg := by
  simp only [validateGoogleDrive, List.append_eq_nil_iff] at h
  obtain ⟨⟨⟨⟨⟨hsize, hblocks⟩, hchunks⟩, -⟩, -⟩, -⟩ := h
  have hrange := of_check hsize
  have hdvd := of_check hblocks
  have hworkers := of_check hchunks
  unfold kMinChunk kMaxChunk at hrange
  unfold kMinChunk at hdvd
  refine ⟨?_, ?_, ?_, by omega⟩
  · unfold kResumableAlignment
    omega
  · unfold kMaxChunk
    omega
  · exact Nat.dvd_of_mod_eq_zero (by unfold kResumableAlignment; omega)

namespace Chunked

/-- The configured size is the size of the chunks, with nothing rounded. -/
theorem chunkBytes_eq (h : Chunked cfg) : (session cfg json path file total).chunkBytes = cfg.chunkSize := by
  have hmin := h.min_le
  have hmax := h.le_max
  unfold kMaxChunk at hmax
  have hmod : (cfg.chunkSize : Int).bmod 18446744073709551616 = cfg.chunkSize := by
    rw [Int.bmod_def]
    omega
  unfold Resumable.chunkBytes session
  dsimp only
  rw [hmod, max_eq_left (by exact_mod_cast hmin), Int.toNat_natCast]
  exact Nat.div_mul_cancel h.blocks

theorem plan_length_le (h : Chunked cfg) (json : JsonLib) (path : Path) (file : Nat → UInt8)
    (hsize : total ≤ 2147483584 * kResumableAlignment) :
    (session cfg json path file total).plan.length ≤ 2147483584 := by
  by_contra hlong
  have hlast := Resumable.lt_plan_length.1 (Nat.lt_of_not_le hlong)
  rw [h.chunkBytes_eq] at hlast
  have hmul := Nat.mul_le_mul_left 2147483584 h.min_le
  show False
  have htotal : (session cfg json path file total).total = total := rfl
  omega

theorem parallelism_le (h : Chunked cfg) (json : JsonLib) (path : Path) (file : Nat → UInt8) (total : Nat) :
    (session cfg json path file total).parallelism ≤ 64 := by
  obtain ⟨hlow, hhigh⟩ := h.workers
  unfold Resumable.parallelism clamp session
  dsimp only
  split_ifs <;> omega

end Chunked

variable {δ : Type}

/-- Under any configuration that `load` accepts, of whatever document and environment, a file of up to
2^31 - 64 blocks of 256 KiB is cut into chunks of exactly the configured size, which tile it, each in
whole blocks but the last; at most 64 workers send them, and in every run they claim each chunk once. -/
theorem accepted_sessions (D : Doubles δ) (json json' : JsonLib) (boostParse : String → Option String)
    (env : Environment) (path : Path) (file : ConfigFile) (cfg : AppConfig δ)
    (h : load D json boostParse env path file = .ok cfg) (source : Path) (bytes : Nat → UInt8) (total : Nat)
    (hsize : total ≤ 2147483584 * kResumableAlignment) (sessionUri : String) :
    (session cfg.googleDrive json' source bytes total).chunkBytes = cfg.googleDrive.chunkSize ∧
    (session cfg.googleDrive json' source bytes total).parallelism ≤ 64 ∧
    (session cfg.googleDrive json' source bytes total).Planned ∧
    (session cfg.googleDrive json' source bytes total).ClaimsRight sessionUri := by
  have hchunked : Chunked cfg.googleDrive := by
    unfold load at h
    split at h
    · cases h
    · cases h
    · split at h
      · cases h
      · split at h
        · cases h
        · obtain ⟨-, -, hvalid, -⟩ := ((reports_all D json env _).1 cfg).1 h
          simp only [validate, List.append_eq_nil_iff] at hvalid
          exact chunked_of_validate hvalid.1.1.1.2
  have hplan := hchunked.plan_length_le json' source bytes hsize
  have hworkers := hchunked.parallelism_le json' source bytes total
  have hmax := hchunked.le_max
  unfold kMaxChunk at hmax
  unfold kResumableAlignment at hsize
  refine ⟨hchunked.chunkBytes_eq, hworkers, Resumable.planned ?_ (by omega), claimsRight sessionUri (by omega)⟩
  show total + cfg.googleDrive.chunkSize < 9223372036854775808
  omega

/-- The fields that have no default in bounds. -/
def requiredOnly : Json := .object [("telegram", .object [("api_id", .number 1), ("api_hash", .string "h"),
  ("bot_token", .string "t"), ("owner_id", .number 7)])]

def requiredText : String :=
  "\x7b\"telegram\":\x7b\"api_id\":1,\"api_hash\":\"h\",\"bot_token\":\"t\",\"owner_id\":7\x7d\x7d"

theorem required_only_sessions : ∃ cfg : AppConfig Int, cfg.googleDrive.chunkSize = 8388608 ∧
    (session cfg.googleDrive idParser "f" (fun _ => 0) 1099511627776).chunkBytes = cfg.googleDrive.chunkSize ∧
    (session cfg.googleDrive idParser "f" (fun _ => 0) 1099511627776).ClaimsRight "session" := by
  obtain ⟨cfg, hchunk, hcfg⟩ : ∃ cfg : AppConfig Int, cfg.googleDrive.chunkSize = 8388608 ∧
      load ⟨id, fun _ => 1, fun _ => none, fun n => n < 0⟩ ⟨fun _ => .ok requiredOnly, fun _ => 0⟩
        (fun _ => none) (fun _ => none) "config.json" (.contents requiredText) = .ok cfg := ⟨_, rfl, rfl⟩
  obtain ⟨hbytes, -, -, hclaims⟩ := accepted_sessions _ _ idParser _ _ _ _ cfg hcfg "f" (fun _ => 0)
    1099511627776 (by decide) "session"
  exact ⟨cfg, hchunk, hbytes, hclaims⟩

end Cmlb.Upload.GoogleDrive
