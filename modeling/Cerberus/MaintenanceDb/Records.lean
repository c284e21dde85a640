import Cerberus.Foundation.Wire

namespace Cerberus.MaintenanceDb

open Std Foundation.Bytes Foundation.Wire

/-- A stored record: `std::map<std::string, std::string>`. -/
abbrev Fields := Dict ByteString

/-- The assignments `m["name"] = value` in the order of the list. -/
def assign (m : Fields) (l : List (String × ByteString)) : Fields :=
  m.insertMany (l.map (fun e ↦ (lit e.1, e.2)))

/-- The loop `for (const auto& [k, v] : other) m[k] = v`. -/
def overlay (m other : Fields) : Fields := m.insertMany other.toList

def Fields.text (m : Fields) (name : String) : ByteString := m[lit name]?.getD []

/-- `m.find(name) != m.end() && it->second == value` -/
def Fields.holds (m : Fields) (name : String) (value : ByteString) : Bool :=
  m[lit name]? == some value

structure RBPCState where
  nodeId : ByteString := []
  pinHash : ByteString := []
  salt : ByteString := []
  failedAttempts : Int := 0
  burned : Bool := false
  lastAuthTimestamp : Int := 0
  createdAt : Int := 0
  deriving DecidableEq

structure TrustPolicy where
  policyId : ByteString := []
  deploymentModel : ByteString := []
  credentialAuthority : ByteString := []
  centralServiceRole : ByteString := []
  medusaservRole : ByteString := []
  psiforcedbRole : ByteString := []
  psmdbOwnerScope : ByteString := []
  proprietaryBoundary : ByteString := []
  plaintextStorage : ByteString := []
  maintenanceEncryptionLayer : ByteString := []
  psmdbRecovery : ByteString := []
  psmdbReenrollmentModel : ByteString := []
  hashSuite : ByteString := []
  pqcProfile : ByteString := []
  hardwareBinding : ByteString := []
  authorityScope : ByteString := []
  rbpcPinSource : ByteString := []
  rbpcWordSource : ByteString := []
  rbpcConfirmationWindowSeconds : ByteString := []
  rbpcFailureBurnThreshold : ByteString := []
  temporaryOnboarding : ByteString := []
  auditScope : ByteString := []
  stepUpModel : ByteString := []
  recordClass : ByteString := []
  createdAt : ByteString := []
  updatedAt : ByteString := []
  deriving DecidableEq

def TrustPolicy.entries (r : TrustPolicy) : List (String × ByteString) := [
  ("policy_id", r.policyId),
  ("deployment_model", r.deploymentModel),
  ("credential_authority", r.credentialAuthority),
  ("central_service_role", r.centralServiceRole),
  ("medusaserv_role", r.medusaservRole),
  ("psiforcedb_role", r.psiforcedbRole),
  ("psmdb_owner_scope", r.psmdbOwnerScope),
  ("proprietary_boundary", r.proprietaryBoundary),
  ("plaintext_storage", r.plaintextStorage),
  ("maintenance_encryption_layer", r.maintenanceEncryptionLayer),
  ("psmdb_recovery", r.psmdbRecovery),
  ("psmdb_reenrollment_model", r.psmdbReenrollmentModel),
  ("hash_suite", r.hashSuite),
  ("pqc_profile", r.pqcProfile),
  ("hardware_binding", r.hardwareBinding),
  ("authority_scope", r.authorityScope),
  ("rbpc_pin_source", r.rbpcPinSource),
  ("rbpc_word_source", r.rbpcWordSource),
  ("rbpc_confirmation_window_seconds", r.rbpcConfirmationWindowSeconds),
  ("rbpc_failure_burn_threshold", r.rbpcFailureBurnThreshold),
  ("temporary_onboarding", r.temporaryOnboarding),
  ("audit_scope", r.auditScope),
  ("step_up_model", r.stepUpModel),
  ("record_class", r.recordClass),
  ("created_at", r.createdAt),
  ("updated_at", r.updatedAt)]

def TrustPolicy.toMap (r : TrustPolicy) : Fields := assign ∅ r.entries

def TrustPolicy.fromMap (m : Fields) : TrustPolicy where
  policyId := m.text "policy_id"
  deploymentModel := m.text "deployment_model"
  credentialAuthority := m.text "credential_authority"
  centralServiceRole := m.text "central_service_role"
  medusaservRole := m.text "medusaserv_role"
  psiforcedbRole := m.text "psiforcedb_role"
  psmdbOwnerScope := m.text "psmdb_owner_scope"
  proprietaryBoundary := m.text "proprietary_boundary"
  plaintextStorage := m.text "plaintext_storage"
  maintenanceEncryptionLayer := m.text "maintenance_encryption_layer"
  psmdbRecovery := m.text "psmdb_recovery"
  psmdbReenrollmentModel := m.text "psmdb_reenrollment_model"
  hashSuite := m.text "hash_suite"
  pqcProfile := m.text "pqc_profile"
  hardwareBinding := m.text "hardware_binding"
  authorityScope := m.text "authority_scope"
  rbpcPinSource := m.text "rbpc_pin_source"
  rbpcWordSource := m.text "rbpc_word_source"
  rbpcConfirmationWindowSeconds := m.text "rbpc_confirmation_window_seconds"
  rbpcFailureBurnThreshold := m.text "rbpc_failure_burn_threshold"
  temporaryOnboarding := m.text "temporary_onboarding"
  auditScope := m.text "audit_scope"
  stepUpModel := m.text "step_up_model"
  recordClass := m.text "record_class"
  createdAt := m.text "created_at"
  updatedAt := m.text "updated_at"

def TrustPolicy.defaultPolicy : TrustPolicy where
  policyId := lit "cerberus_rbpc_trust_default"
  deploymentModel := lit "component_optional"
  credentialAuthority := lit "server_isolated"
  centralServiceRole := lit "relay_directory_update_only"
  medusaservRole := lit "open_protocol_verifier"
  psiforcedbRole := lit "sealed_psmdb_authority_when_installed"
  psmdbOwnerScope := lit "d_hargreaves_only"
  proprietaryBoundary := lit "sealed_vault_private"
  plaintextStorage := lit "forbidden"
  maintenanceEncryptionLayer := lit "lamia_fabrica_owned_required"
  psmdbRecovery := lit "forbidden"
  psmdbReenrollmentModel := lit "rebuild_not_recover"
  hashSuite := lit "BLAKE3+SHA256"
  pqcProfile := lit "hybrid_pqc_required"
  hardwareBinding := lit "required"
  authorityScope := lit "local_login_pfql_medusaserv_psiforcedb_admin"
  rbpcPinSource := lit "system_issued"
  rbpcWordSource := lit "user_memorized"
  rbpcConfirmationWindowSeconds := lit "30"
  rbpcFailureBurnThreshold := lit "3"
  temporaryOnboarding := lit "sealed_expiring_consumed_local"
  auditScope := lit "local_psmdb"
  stepUpModel := lit "partial_disclosure_rbpc"
  recordClass := lit "rbpc_trust_policy"

structure InferenceRecord where
  inferenceId : ByteString := []
  sessionId : ByteString := []
  prompt : ByteString := []
  resultSummary : ByteString := []
  status : ByteString := []
  timestamp : ByteString := []
  generationTimeMs : ByteString := []
  width : ByteString := []
  height : ByteString := []
  numSteps : ByteString := []
  guidanceScale : ByteString := []
  encoderName : ByteString := []
  postProcessorName : ByteString := []
  gpuBackendName : ByteString := []
  textEncodeUsedNpu : ByteString := []
  denoiseUsedGpu : ByteString := []
  vaeDecodeUsedGpu : ByteString := []
  postProcessUsedNpu : ByteString := []
  unetDenoiseUsedNpu : ByteString := []
  npuCheapOpsPercent : ByteString := []
  recoveryAttempts : ByteString := []
  nodeId : ByteString := []
  deriving DecidableEq

def InferenceRecord.entries (r : InferenceRecord) : List (String × ByteString) := [
  ("inference_id", r.inferenceId),
  ("session_id", r.sessionId),
  ("prompt", r.prompt),
  ("result_summary", r.resultSummary),
  ("status", r.status),
  ("timestamp", r.timestamp),
  ("generation_time_ms", r.generationTimeMs),
  ("width", r.width),
  ("height", r.height),
  ("num_steps", r.numSteps),
  ("guidance_scale", r.guidanceScale),
  ("encoder_name", r.encoderName),
  ("post_processor_name", r.postProcessorName),
  ("gpu_backend_name", r.gpuBackendName),
  ("text_encode_used_npu", r.textEncodeUsedNpu),
  ("denoise_used_gpu", r.denoiseUsedGpu),
  ("vae_decode_used_gpu", r.vaeDecodeUsedGpu),
  ("post_process_used_npu", r.postProcessUsedNpu),
  ("unet_denoise_used_npu", r.unetDenoiseUsedNpu),
  ("npu_cheap_ops_percent", r.npuCheapOpsPercent),
  ("recovery_attempts", r.recoveryAttempts),
  ("node_id", r.nodeId),
  ("record_class", lit "inference_record"),
  ("plaintext_storage", lit "forbidden")]

def InferenceRecord.toMap (r : InferenceRecord) : Fields := assign ∅ r.entries

def InferenceRecord.fromMap (m : Fields) : InferenceRecord where
  inferenceId := m.text "inference_id"
  sessionId := m.text "session_id"
  prompt := m.text "prompt"
  resultSummary := m.text "result_summary"
  status := m.text "status"
  timestamp := m.text "timestamp"
  generationTimeMs := m.text "generation_time_ms"
  width := m.text "width"
  height := m.text "height"
  numSteps := m.text "num_steps"
  guidanceScale := m.text "guidance_scale"
  encoderName := m.text "encoder_name"
  postProcessorName := m.text "post_processor_name"
  gpuBackendName := m.text "gpu_backend_name"
  textEncodeUsedNpu := m.text "text_encode_used_npu"
  denoiseUsedGpu := m.text "denoise_used_gpu"
  vaeDecodeUsedGpu := m.text "vae_decode_used_gpu"
  postProcessUsedNpu := m.text "post_process_used_npu"
  unetDenoiseUsedNpu := m.text "unet_denoise_used_npu"
  npuCheapOpsPercent := m.text "npu_cheap_ops_percent"
  recoveryAttempts := m.text "recovery_attempts"
  nodeId := m.text "node_id"

structure FileVaultRecord where
  fileId : ByteString := []
  projectName : ByteString := []
  folderPath : ByteString := []
  originalName : ByteString := []
  encryptedDiskPath : ByteString := []
  sizeBytes : ByteString := []
  mimeType : ByteString := []
  thumbnailBase64 : ByteString := []
  createdAt : ByteString := []
  lastAccessed : ByteString := []
  jwtAudience : ByteString := []
  permissionLevel : ByteString := []
  encryptionIv : ByteString := []
  encryptionTag : ByteString := []
  status : ByteString := []
  nodeId : ByteString := []
  deriving DecidableEq

def FileVaultRecord.entries (r : FileVaultRecord) : List (String × ByteString) := [
  ("file_id", r.fileId),
  ("project_name", r.projectName),
  ("folder_path", r.folderPath),
  ("original_name", r.originalName),
  ("encrypted_disk_path", r.encryptedDiskPath),
  ("size_bytes", r.sizeBytes),
  ("mime_type", r.mimeType),
  ("thumbnail_base64", r.thumbnailBase64),
  ("created_at", r.createdAt),
  ("last_accessed", r.lastAccessed),
  ("jwt_audience", r.jwtAudience),
  ("permission_level", r.permissionLevel),
  ("encryption_iv", r.encryptionIv),
  ("encryption_tag", r.encryptionTag),
  ("status", r.status),
  ("node_id", r.nodeId),
  ("record_class", lit "file_vault_record"),
  ("plaintext_storage", lit "forbidden")]

def FileVaultRecord.toMap (r : FileVaultRecord) : Fields := assign ∅ r.entries

def FileVaultRecord.fromMap (m : Fields) : FileVaultRecord where
  fileId := m.text "file_id"
  projectName := m.text "project_name"
  folderPath := m.text "folder_path"
  originalName := m.text "original_name"
  encryptedDiskPath := m.text "encrypted_disk_path"
  sizeBytes := m.text "size_bytes"
  mimeType := m.text "mime_type"
  thumbnailBase64 := m.text "thumbnail_base64"
  createdAt := m.text "created_at"
  lastAccessed := m.text "last_accessed"
  jwtAudience := m.text "jwt_audience"
  permissionLevel := m.text "permission_level"
  encryptionIv := m.text "encryption_iv"
  encryptionTag := m.text "encryption_tag"
  status := m.text "status"
  nodeId := m.text "node_id"

end Cerberus.MaintenanceDb
