import Mathlib.Data.List.Dedup
import WinCommander.Library.JsonPath
import WinCommander.Library.Outcome

/-!
# The two partitions of the settings

Every leaf of the settings belongs to the machine or to the user who is signed in.  A path says to
whom: the application preferences and the root members by rule, the system state by one table.
-/

namespace Settings

open Json Outcome

inductive SettingsScope where
  | machine
  | user
  deriving DecidableEq

structure SystemStateScopeRule where
  path : String
  scope : SettingsScope

def rootSettingsScopeTable : List (String × SettingsScope) := [
  ("settingsVersion", .machine),
  ("appVersion", .machine),
  ("deviceId", .machine),
  ("createdAt", .machine),
  ("lastSeenAt", .user),
  ("policy", .machine)]

/-- The owner of each leaf of the system state. -/
def systemStateScopeTable : List SystemStateScopeRule := [
  ⟨"argus.dlp.enabled", .machine⟩,
  ⟨"argus.dlp.running", .machine⟩,
  ⟨"device.cpu", .machine⟩,
  ⟨"device.ramGb", .machine⟩,
  ⟨"device.gpu", .machine⟩,
  ⟨"device.disks", .machine⟩,
  ⟨"device.macAddresses", .machine⟩,
  ⟨"device.serialNumber", .machine⟩,
  ⟨"device.biosVersion", .machine⟩,
  ⟨"device.osBuild", .machine⟩,
  ⟨"device.domain", .machine⟩,
  ⟨"device.timeZone", .machine⟩,
  ⟨"device.systemLocale", .machine⟩,
  ⟨"device.users", .machine⟩,
  ⟨"device.runtimes", .machine⟩,
  ⟨"device.windowsActivated", .machine⟩,
  ⟨"device.bitlockerStatus", .machine⟩,
  ⟨"device.lastUpdateAt", .machine⟩,
  ⟨"device.pendingUpdatesCount", .machine⟩,
  ⟨"device.hostname", .machine⟩,
  ⟨"device.osName", .machine⟩,
  ⟨"device.osVersion", .machine⟩,
  ⟨"device.deviceType", .machine⟩,
  ⟨"device.ram", .machine⟩,
  ⟨"device.isAdmin", .machine⟩,
  ⟨"device.gpuDetection.gpuFound", .machine⟩,
  ⟨"device.gpuDetection.gpuName", .machine⟩,
  ⟨"device.gpuDetection.driverVersion", .machine⟩,
  ⟨"device.gpuDetection.vramMb", .machine⟩,
  ⟨"device.gpuDetection.computeCapability", .machine⟩,
  ⟨"device.gpuDetection.cudaFound", .machine⟩,
  ⟨"device.gpuDetection.cudaPath", .machine⟩,
  ⟨"device.gpuDetection.lastCheckedAt", .machine⟩,
  ⟨"privacy.telemetry.windowsDisabled", .machine⟩,
  ⟨"privacy.telemetry.officeDisabled", .machine⟩,
  ⟨"privacy.telemetry.powershell7Disabled", .machine⟩,
  ⟨"privacy.telemetry.copilotDisabled", .user⟩,
  ⟨"privacy.telemetry.activityHistoryDisabled", .user⟩,
  ⟨"privacy.telemetry.locationTrackingDisabled", .machine⟩,
  ⟨"privacy.telemetry.windowsSuggestionsDisabled", .user⟩,
  ⟨"privacy.clipboard.historyDisabled", .user⟩,
  ⟨"privacy.clipboard.cloudSyncDisabled", .user⟩,
  ⟨"privacy.clipboard.pasteMonitorEnabled", .user⟩,
  ⟨"privacy.clipboard.pasteMonitorCategories.cloudApi", .user⟩,
  ⟨"privacy.clipboard.pasteMonitorCategories.aiApi", .user⟩,
  ⟨"privacy.clipboard.pasteMonitorCategories.devTools", .user⟩,
  ⟨"privacy.clipboard.pasteMonitorCategories.paymentComms", .user⟩,
  ⟨"privacy.clipboard.pasteMonitorCategories.keysAndCrypto", .user⟩,
  ⟨"privacy.clipboard.pasteMonitorCategories.personalData", .user⟩,
  ⟨"privacy.clipboard.pasteMonitorCategories.maliciousCommand", .user⟩,
  ⟨"privacy.clipboard.pasteMonitorCategories.unicode", .user⟩,
  ⟨"privacy.clipboard.pasteMonitorCryptoSwapEnabled", .user⟩,
  ⟨"privacy.clipboard.pasteMonitorAutoClearEnabled", .user⟩,
  ⟨"privacy.clipboard.pasteMonitorAutoClearSeconds", .user⟩,
  ⟨"privacy.clipboard.pasteMonitorAutoClearOnLock", .user⟩,
  ⟨"privacy.clipboard.pasteMonitorReportToFleet", .user⟩,
  ⟨"privacy.tracking.recentFilesDisabled", .user⟩,
  ⟨"privacy.tracking.jumpListsDisabled", .user⟩,
  ⟨"privacy.tracking.thumbnailCacheDisabled", .user⟩,
  ⟨"privacy.tracking.pagefileDisabled", .machine⟩,
  ⟨"privacy.tracking.recallSnapshotsDisabled", .machine⟩,
  ⟨"privacy.tracking.typingInsightsDisabled", .user⟩,
  ⟨"privacy.tracking.advertisingIdDisabled", .user⟩,
  ⟨"privacy.tracking.tailoredExperiencesDisabled", .user⟩,
  ⟨"privacy.tracking.officeLoggingDisabled", .machine⟩,
  ⟨"privacy.tracking.diagnosticEventTracingDisabled", .machine⟩,
  ⟨"privacy.tracking.rdpIdleDisconnectEnabled", .machine⟩,
  ⟨"privacy.tracking.rdpIdleDisconnectTimeout", .machine⟩,
  ⟨"privacy.tracking.rdpIdleWarningSeconds", .machine⟩,
  ⟨"privacy.tracking.rdpClearCacheOnDisconnect", .machine⟩,
  ⟨"privacy.tracking.rdpRemoveCredsOnDisconnect", .machine⟩,
  ⟨"privacy.tracking.rdpSaveLog", .machine⟩,
  ⟨"privacy.tracking.rdpDismountVaultsOnDisconnect", .machine⟩,
  ⟨"privacy.tracking.quickAccessRecentDisabled", .user⟩,
  ⟨"privacy.tracking.quickAccessFrequentDisabled", .user⟩,
  ⟨"privacy.tracking.runMruDisabled", .user⟩,
  ⟨"privacy.tracking.searchHistoryDisabled", .user⟩,
  ⟨"privacy.tracking.terminalHistoryDisabled", .user⟩,
  ⟨"privacy.lockscreen.privacyDisabled", .user⟩,
  ⟨"privacy.appCapabilities.webcam", .user⟩,
  ⟨"privacy.appCapabilities.microphone", .user⟩,
  ⟨"privacy.appCapabilities.location", .user⟩,
  ⟨"privacy.appCapabilities.contacts", .user⟩,
  ⟨"privacy.appCapabilities.calendar", .user⟩,
  ⟨"privacy.appCapabilities.callHistory", .user⟩,
  ⟨"privacy.appCapabilities.phoneCall", .user⟩,
  ⟨"privacy.appCapabilities.email", .user⟩,
  ⟨"privacy.appCapabilities.messaging", .user⟩,
  ⟨"privacy.appCapabilities.radios", .user⟩,
  ⟨"privacy.appCapabilities.bluetoothSync", .user⟩,
  ⟨"privacy.appCapabilities.appDiagnostics", .user⟩,
  ⟨"privacy.appCapabilities.documents", .user⟩,
  ⟨"privacy.appCapabilities.pictures", .user⟩,
  ⟨"privacy.appCapabilities.videos", .user⟩,
  ⟨"privacy.appCapabilities.fileSystem", .user⟩,
  ⟨"privacy.appCapabilities.notifications", .user⟩,
  ⟨"privacy.appCapabilities.gazeInput", .user⟩,
  ⟨"privacy.appCapabilities.userAccountInformation", .user⟩,
  ⟨"privacy.internetCommunication.restrictedEnabled", .machine⟩,
  ⟨"privacy.privacyProtectionEnabled", .machine⟩,
  ⟨"privacy.setupCompletionNagsDisabled", .user⟩,
  ⟨"privacy.acquisitionWatchEnabled", .machine⟩,
  ⟨"privacy.privacyShield.notifyMode", .user⟩,
  ⟨"privacy.privacyShield.fleetMonitoringEnabled", .user⟩,
  ⟨"privacy.privacyShield.fleetManaged", .user⟩,
  ⟨"privacy.privacyShield.fleetNotificationLimit", .user⟩,
  ⟨"privacy.privacyShield.fleetNotificationWindowSeconds", .user⟩,
  ⟨"privacy.privacyShield.gazeDetectionEnabled", .user⟩,
  ⟨"privacy.privacyShield.lookAwayDetectionEnabled", .user⟩,
  ⟨"privacy.privacyShield.lookAwayDelaySeconds", .user⟩,
  ⟨"privacy.privacyShield.antiPeepingEnabled", .user⟩,
  ⟨"privacy.privacyShield.cameraHunterEnabled", .user⟩,
  ⟨"privacy.privacyShield.lookAwayNotificationsEnabled", .user⟩,
  ⟨"privacy.privacyShield.multipleFacesNotificationsEnabled", .user⟩,
  ⟨"privacy.privacyShield.phoneNotificationsEnabled", .user⟩,
  ⟨"privacy.privacyShield.confidenceThreshold", .user⟩,
  ⟨"privacy.privacyShield.wakeDelaySeconds", .user⟩,
  ⟨"privacy.privacyShield.blurOpacity", .user⟩,
  ⟨"privacy.privacyShield.modelSize", .user⟩,
  ⟨"privacy.privacyShield.detectionBufferFrames", .user⟩,
  ⟨"privacy.privacyShield.captureOnDevice", .user⟩,
  ⟨"privacy.privacyShield.captureOnMultiFace", .user⟩,
  ⟨"privacy.privacyShield.sendIncidentCapturesToFleet", .user⟩,
  ⟨"privacy.privacyShield.fleetCaptureOnPhone", .user⟩,
  ⟨"privacy.privacyShield.fleetCaptureOnMultiFace", .user⟩,
  ⟨"privacy.privacyShield.captureSpeed", .user⟩,
  ⟨"privacy.privacyShield.deviceWakeMultiplier", .user⟩,
  ⟨"privacy.privacyShield.multiFaceWakeMultiplier", .user⟩,
  ⟨"privacy.privacyShield.autostart", .user⟩,
  ⟨"privacy.decoyMonitor.enabled", .machine⟩,
  ⟨"privacy.decoyMonitor.enrolledPaths", .machine⟩,
  ⟨"privacy.decoyMonitor.readAuditEnabled", .machine⟩,
  ⟨"privacy.decoyMonitor.fleetAlertEnabled", .machine⟩,
  ⟨"privacy.ransomwareMonitor.enabled", .machine⟩,
  ⟨"privacy.ransomwareMonitor.threshold", .machine⟩,
  ⟨"privacy.ransomwareMonitor.windowSeconds", .machine⟩,
  ⟨"privacy.ransomwareMonitor.alertCooldownSeconds", .machine⟩,
  ⟨"privacy.ransomwareMonitor.attributionMinFiles", .machine⟩,
  ⟨"privacy.ransomwareMonitor.customWatchDirs", .machine⟩,
  ⟨"privacy.ransomwareMonitor.action", .machine⟩,
  ⟨"privacy.ransomwareMonitor.reportToFleet", .machine⟩,
  ⟨"privacy.remoteAccessMonitor.enabled", .machine⟩,
  ⟨"privacy.remoteAccessMonitor.tools", .machine⟩,
  ⟨"privacy.glassesMonitor.enabled", .machine⟩,
  ⟨"privacy.authAnomalyMonitor.enabled", .machine⟩,
  ⟨"privacy.authAnomalyMonitor.failedBurstThreshold", .machine⟩,
  ⟨"privacy.authAnomalyMonitor.failedBurstWindowSecs", .machine⟩,
  ⟨"privacy.authAnomalyMonitor.workStartHour", .machine⟩,
  ⟨"privacy.authAnomalyMonitor.workEndHour", .machine⟩,
  ⟨"privacy.authAnomalyMonitor.workDays", .machine⟩,
  ⟨"privacy.authAnomalyMonitor.timeBasis", .machine⟩,
  ⟨"privacy.authAnomalyMonitor.detectRdp", .machine⟩,
  ⟨"privacy.authAnomalyMonitor.detectNewAccounts", .machine⟩,
  ⟨"privacy.authAnomalyMonitor.detectOffHours", .machine⟩,
  ⟨"privacy.authAnomalyMonitor.alertDebounceSecs", .machine⟩,
  ⟨"privacy.authAnomalyMonitor.reportToFleet", .machine⟩,
  ⟨"privacy.usbSecurity.monitorEnabled", .machine⟩,
  ⟨"privacy.usbSecurity.hidGuardEnabled", .machine⟩,
  ⟨"privacy.usbSecurity.meteringEnabled", .machine⟩,
  ⟨"privacy.usbSecurity.autoSandboxEnabled", .machine⟩,
  ⟨"privacy.screenCapture.detectionEnabled", .machine⟩,
  ⟨"privacy.screenCapture.protectWindow", .machine⟩,
  ⟨"privacy.screenCapture.reportToFleet", .machine⟩,
  ⟨"privacy.coercionPhrase.enabled", .machine⟩,
  ⟨"privacy.coercionPhrase.phrases", .machine⟩,
  ⟨"privacy.selfDestruct.enabled", .machine⟩,
  ⟨"privacy.selfDestruct.steps", .machine⟩,
  ⟨"privacy.selfDestruct.excludeBrowsers", .machine⟩,
  ⟨"privacy.selfDestruct.deactivateLicenseFirst", .machine⟩,
  ⟨"privacy.selfDestruct.shutdownSystem", .machine⟩,
  ⟨"privacy.selfDestruct.rebootToUsbEnabled", .machine⟩,
  ⟨"privacy.selfDestruct.shredFolders", .machine⟩,
  ⟨"privacy.selfDestruct.usersToRemove", .machine⟩,
  ⟨"privacy.selfDestruct.cryptoEraseVeracryptPaths", .machine⟩,
  ⟨"privacy.selfDestruct.cryptoEraseVeracryptDevices", .machine⟩,
  ⟨"privacy.selfDestruct.cryptoEraseBitlockerDrives", .machine⟩,
  ⟨"privacy.startupPin.enabled", .machine⟩,
  ⟨"privacy.startupPin.realHash", .machine⟩,
  ⟨"privacy.startupPin.decoyHash", .machine⟩,
  ⟨"privacy.startupPin.destroyHash", .machine⟩,
  ⟨"privacy.distressPhrases", .user⟩,
  ⟨"privacy.browserExtensions", .user⟩,
  ⟨"tweaks.security.defenderDisabled", .machine⟩,
  ⟨"tweaks.security.windowsUpdateDisabled", .machine⟩,
  ⟨"tweaks.security.uacDisabled", .machine⟩,
  ⟨"tweaks.security.usbWriteProtect", .machine⟩,
  ⟨"tweaks.security.usbStorageLockdown", .machine⟩,
  ⟨"tweaks.security.consumerFeaturesDisabled", .machine⟩,
  ⟨"tweaks.security.remoteAssistanceDisabled", .machine⟩,
  ⟨"tweaks.security.anonymousSamEnumerationBlocked", .machine⟩,
  ⟨"tweaks.security.vbsDisabled", .machine⟩,
  ⟨"tweaks.security.bitlockerAutoEncryptDisabled", .machine⟩,
  ⟨"tweaks.security.wpbtDisabled", .machine⟩,
  ⟨"tweaks.security.smartScreenDisabled", .machine⟩,
  ⟨"tweaks.security.oobeBypassEnabled", .machine⟩,
  ⟨"tweaks.security.gameDvrDisabled", .machine⟩,
  ⟨"tweaks.security.firefoxHardeningEnabled", .machine⟩,
  ⟨"tweaks.security.braveHardeningEnabled", .machine⟩,
  ⟨"tweaks.security.chromeHardeningEnabled", .machine⟩,
  ⟨"tweaks.security.edgeHardeningEnabled", .machine⟩,
  ⟨"tweaks.security.universalExtensionsDeployed", .machine⟩,
  ⟨"tweaks.security.browserAutoUpdateForced", .machine⟩,
  ⟨"tweaks.security.copilotAiRemoved", .machine⟩,
  ⟨"tweaks.security.systemRestoreOff", .machine⟩,
  ⟨"tweaks.security.recallOff", .machine⟩,
  ⟨"tweaks.security.crashDumpsOff", .machine⟩,
  ⟨"tweaks.security.clipboardHistoryOff", .user⟩,
  ⟨"tweaks.security.requirePwOnResume", .user⟩,
  ⟨"tweaks.security.kernelDmaProtect", .machine⟩,
  ⟨"tweaks.security.shredPasses", .machine⟩,
  ⟨"tweaks.security.shredMediaAwareEnabled", .machine⟩,
  ⟨"tweaks.security.shredMftSlackEnabled", .machine⟩,
  ⟨"tweaks.security.ramSpillControlEnabled", .machine⟩,
  ⟨"tweaks.security.bitlockerTpmPinEnforce", .machine⟩,
  ⟨"tweaks.security.acquisitionDriverBlocklist", .machine⟩,
  ⟨"tweaks.security.forensicToolBlock", .machine⟩,
  ⟨"tweaks.security.lidClosePowerOff", .machine⟩,
  ⟨"tweaks.security.depEnabled", .machine⟩,
  ⟨"tweaks.security.aslrMandatory", .machine⟩,
  ⟨"tweaks.security.aslrBottomUp", .machine⟩,
  ⟨"tweaks.security.cfgEnabled", .machine⟩,
  ⟨"tweaks.security.heapIntegrity", .machine⟩,
  ⟨"tweaks.security.sehopEnabled", .machine⟩,
  ⟨"tweaks.security.asrRulesEnabled", .machine⟩,
  ⟨"tweaks.security.controlledFolderAccessEnabled", .machine⟩,
  ⟨"tweaks.security.networkProtectionEnabled", .machine⟩,
  ⟨"tweaks.os.superfetchDisabled", .machine⟩,
  ⟨"tweaks.os.prefetchDisabled", .machine⟩,
  ⟨"tweaks.os.hibernationDisabled", .machine⟩,
  ⟨"tweaks.os.fastStartupDisabled", .machine⟩,
  ⟨"tweaks.os.ntfsOptimizationsEnabled", .machine⟩,
  ⟨"tweaks.os.detailedBsodEnabled", .machine⟩,
  ⟨"tweaks.os.memoryCompressionDisabled", .machine⟩,
  ⟨"tweaks.os.win32PrioritySeparation", .machine⟩,
  ⟨"tweaks.os.desktopShellPriorityEnabled", .machine⟩,
  ⟨"tweaks.os.serviceTimeoutsOptimized", .machine⟩,
  ⟨"tweaks.os.reservedStorageDisabled", .machine⟩,
  ⟨"tweaks.os.automaticMaintenanceDisabled", .machine⟩,
  ⟨"tweaks.os.win32LongPathsEnabled", .machine⟩,
  ⟨"tweaks.os.smbBandwidthThrottlingDisabled", .machine⟩,
  ⟨"tweaks.ui.classicContextMenu", .user⟩,
  ⟨"tweaks.ui.fileExtensionsVisible", .user⟩,
  ⟨"tweaks.ui.hiddenFilesVisible", .user⟩,
  ⟨"tweaks.ui.galleryHomeRemoved", .user⟩,
  ⟨"tweaks.ui.bingSearchDisabled", .user⟩,
  ⟨"tweaks.ui.backgroundAppsDisabled", .user⟩,
  ⟨"tweaks.ui.notificationsDisabled", .user⟩,
  ⟨"tweaks.ui.endTaskOnTaskbar", .user⟩,
  ⟨"tweaks.ui.folderTypeDiscoveryDisabled", .user⟩,
  ⟨"tweaks.ui.shortcutSuffixRemoved", .user⟩,
  ⟨"tweaks.ui.autoPlayDisabled", .user⟩,
  ⟨"tweaks.ui.taskbarDebloated", .user⟩,
  ⟨"tweaks.ui.startRecommendationsDisabled", .user⟩,
  ⟨"tweaks.ui.lowDiskCheckDisabled", .user⟩,
  ⟨"tweaks.ui.explorerOpensThisPc", .user⟩,
  ⟨"tweaks.ui.syncProviderNotificationsHidden", .user⟩,
  ⟨"tweaks.ui.transparencyDisabled", .user⟩,
  ⟨"tweaks.ui.fullPathInTitleBar", .user⟩,
  ⟨"tweaks.ui.desktopIconThisPc", .user⟩,
  ⟨"tweaks.ui.desktopIconRecycleBin", .user⟩,
  ⟨"tweaks.ui.desktopIconUserFiles", .user⟩,
  ⟨"tweaks.ui.desktopIconNetwork", .user⟩,
  ⟨"tweaks.ui.desktopIconControlPanel", .user⟩,
  ⟨"tweaks.ui.shortcutArrowRemoved", .user⟩,
  ⟨"tweaks.ui.snapAssistFlyoutDisabled", .user⟩,
  ⟨"tweaks.ui.explorerCompactMode", .user⟩,
  ⟨"tweaks.ui.explorerCheckboxesEnabled", .user⟩,
  ⟨"tweaks.ui.windowShakeDisabled", .user⟩,
  ⟨"tweaks.ui.clockSecondsVisible", .user⟩,
  ⟨"tweaks.ui.powerShell7Default", .user⟩,
  ⟨"tweaks.bootKernel.tsxEnabled", .machine⟩,
  ⟨"tweaks.bootKernel.firstLogonAnimationDisabled", .machine⟩,
  ⟨"tweaks.bootKernel.startupSoundDisabled", .machine⟩,
  ⟨"tweaks.bootKernel.autoRestartSignonDisabled", .machine⟩,
  ⟨"tweaks.bootKernel.autoRebootOnBsodDisabled", .machine⟩,
  ⟨"tweaks.bootKernel.smallMemoryDumpEnabled", .machine⟩,
  ⟨"tweaks.rdp.keepAlive", .machine⟩,
  ⟨"tweaks.rdp.noTimeouts", .machine⟩,
  ⟨"tweaks.rdp.qosPriority", .machine⟩,
  ⟨"tweaks.rdp.incomingIdleTimeoutEnabled", .machine⟩,
  ⟨"tweaks.rdp.incomingIdleTimeoutSeconds", .machine⟩,
  ⟨"tweaks.rdp.incomingIdleTimeoutMinutes", .machine⟩,
  ⟨"tweaks.rdp.incomingDismountOnEmpty", .machine⟩,
  ⟨"tweaks.rdp.incomingSignOffOnDisconnect", .machine⟩,
  ⟨"tweaks.server.persistentRdpAnimations", .machine⟩,
  ⟨"tweaks.server.ctrlAltDelDisabled", .machine⟩,
  ⟨"tweaks.server.lastSignedInUserHidden", .machine⟩,
  ⟨"tweaks.server.consoleInactivityLock", .machine⟩,
  ⟨"tweaks.server.shutdownTrackerDisabled", .machine⟩,
  ⟨"tweaks.server.serverManagerAtLogonDisabled", .machine⟩,
  ⟨"tweaks.server.ieEnhancedSecurityDisabled", .machine⟩,
  ⟨"tweaks.server.wdigestBlocked", .machine⟩,
  ⟨"tweaks.server.lsaProtectionEnabled", .machine⟩,
  ⟨"tweaks.server.legacyNtlmBlocked", .machine⟩,
  ⟨"tweaks.server.smbSigningRequired", .machine⟩,
  ⟨"tweaks.server.smb1Disabled", .machine⟩,
  ⟨"tweaks.server.remoteRegistryDisabled", .machine⟩,
  ⟨"tweaks.performance.mmcssGamingProfile", .machine⟩,
  ⟨"tweaks.performance.keyboardLatencyOptimised", .user⟩,
  ⟨"tweaks.performance.numLockOnBoot", .user⟩,
  ⟨"tweaks.performance.gpuSchedulingEnabled", .machine⟩,
  ⟨"tweaks.performance.svcHostSplitOptimised", .machine⟩,
  ⟨"tweaks.performance.accessibilityShortcutsDisabled", .user⟩,
  ⟨"tweaks.performance.instantMenuDelay", .user⟩,
  ⟨"tweaks.performance.mouseAccelerationDisabled", .user⟩,
  ⟨"tweaks.performance.autocorrectDisabled", .user⟩,
  ⟨"tweaks.performance.enthusiastModeEnabled", .user⟩,
  ⟨"tweaks.performance.wallpaperFullQuality", .user⟩,
  ⟨"tweaks.gpu.amdUlpsDisabled", .machine⟩,
  ⟨"tweaks.gpu.amdPowerGatingDisabled", .machine⟩,
  ⟨"tweaks.gpu.amdVideoClockGatingDisabled", .machine⟩,
  ⟨"tweaks.gpu.amdAspmDisabled", .machine⟩,
  ⟨"tweaks.gpu.nvidiaDynamicPstateDisabled", .machine⟩,
  ⟨"tweaks.gpu.nvidiaAsyncPstatesDisabled", .machine⟩,
  ⟨"tweaks.gpu.intelAsyncFlipsDisabled", .machine⟩,
  ⟨"tweaks.gpu.intelAdaptiveVsyncDisabled", .machine⟩,
  ⟨"tweaks.power.usbSelectiveSuspendDisabled", .machine⟩,
  ⟨"tweaks.power.cpuThrottlingDisabled", .machine⟩,
  ⟨"tweaks.powerPlan", .machine⟩,
  ⟨"tweaks.aiComponentCleanup", .machine⟩,
  ⟨"tweaks.maintenanceRuns", .machine⟩,
  ⟨"network.dns.provider", .machine⟩,
  ⟨"network.dns.ipv4Preference", .machine⟩,
  ⟨"network.dns.swissFirewallConfig.dohId", .machine⟩,
  ⟨"network.dns.swissFirewallConfig.deviceName", .machine⟩,
  ⟨"network.dns.controlDFilterSlug", .machine⟩,
  ⟨"network.dns.censorshipProtection", .machine⟩,
  ⟨"network.hosts.enabledBlocklists", .machine⟩,
  ⟨"network.firewall.lockdownMode", .machine⟩,
  ⟨"network.firewall.managedRules", .machine⟩,
  ⟨"network.vpnKillSwitch.armed", .machine⟩,
  ⟨"network.vpnKillSwitch.provider", .machine⟩,
  ⟨"network.vpnKillSwitch.pollIntervalSecs", .machine⟩,
  ⟨"network.wifiGuard.enabled", .machine⟩,
  ⟨"network.wifiGuard.learningWindowSecs", .machine⟩,
  ⟨"network.wifiGuard.learningUntil", .machine⟩,
  ⟨"network.wifiGuard.pollIntervalSecs", .machine⟩,
  ⟨"network.wifiGuard.alertDebounceSecs", .machine⟩,
  ⟨"network.wifiGuard.baseline", .machine⟩,
  ⟨"network.wifiGuard.reportToFleet", .machine⟩,
  ⟨"identity.branding.companyName", .user⟩,
  ⟨"identity.branding.productName", .user⟩,
  ⟨"identity.branding.pcName", .machine⟩,
  ⟨"identity.branding.manufacturer", .machine⟩,
  ⟨"identity.branding.supportUrl", .machine⟩,
  ⟨"identity.stealthModeEnabled", .user⟩,
  ⟨"identity.hideServerApps", .user⟩,
  ⟨"identity.hideWinCommander", .machine⟩,
  ⟨"identity.hideWinCommanderHotkey", .user⟩,
  ⟨"identity.flowsEnabled", .user⟩,
  ⟨"identity.advancedToolsEnabled", .user⟩,
  ⟨"identity.riskMatrixEnabled", .user⟩,
  ⟨"identity.moreProductsEnabled", .user⟩,
  ⟨"identity.hideBackendAppsList", .user⟩,
  ⟨"apps.requiredApps", .machine⟩,
  ⟨"apps.blockedApps", .machine⟩,
  ⟨"apps.edgeRemoved", .machine⟩,
  ⟨"apps.onedriveRemoved", .machine⟩,
  ⟨"apps.teamsRemoved", .machine⟩,
  ⟨"apps.removedAppx", .machine⟩,
  ⟨"apps.deprovisionedAppx", .machine⟩,
  ⟨"apps.autoUpdate", .machine⟩,
  ⟨"apps.autoUpdateManifestOnly", .machine⟩,
  ⟨"apps.autoUpdateAttempts", .machine⟩,
  ⟨"apps.pinnedVersions", .machine⟩,
  ⟨"apps.scanIntervalMinutes", .machine⟩,
  ⟨"apps.inventory.lastScanAt", .machine⟩,
  ⟨"apps.inventory.scanDurationMs", .machine⟩,
  ⟨"apps.inventory.manifestApps", .machine⟩,
  ⟨"apps.inventory.otherApps", .machine⟩,
  ⟨"apps.inventory.pendingUpdates", .machine⟩,
  ⟨"apps.inventory.essentials.meshVpn.installed", .machine⟩,
  ⟨"apps.inventory.essentials.meshVpn.version", .machine⟩,
  ⟨"apps.inventory.essentials.meshVpn.connected", .machine⟩,
  ⟨"apps.inventory.essentials.productivityEngine.installed", .machine⟩,
  ⟨"apps.inventory.essentials.productivityEngine.running", .machine⟩,
  ⟨"apps.inventory.essentials.winget.installed", .machine⟩,
  ⟨"apps.inventory.essentials.winget.version", .machine⟩,
  ⟨"apps.inventory.summary.totalInstalled", .machine⟩,
  ⟨"apps.inventory.summary.manifestInstalled", .machine⟩,
  ⟨"apps.inventory.summary.manifestTotal", .machine⟩,
  ⟨"apps.inventory.summary.manifestMissing", .machine⟩,
  ⟨"apps.inventory.summary.otherInstalled", .machine⟩,
  ⟨"apps.inventory.summary.updatesAvailable", .machine⟩,
  ⟨"apps.inventory.summary.essentialsOk", .machine⟩,
  ⟨"productivity.trackerEnabled", .user⟩,
  ⟨"productivity.productivityEngineStealthEnabled", .user⟩,
  ⟨"productivity.excludeAfk", .user⟩,
  ⟨"productivity.defaultRange", .user⟩,
  ⟨"serverApps.apps", .machine⟩,
  ⟨"security.drivers.watchEnabled", .machine⟩,
  ⟨"security.drivers.watchIntervalSecs", .machine⟩,
  ⟨"security.drivers.scanOnStartup", .machine⟩,
  ⟨"security.requireAllDeviceAlertsInFleet", .machine⟩,
  ⟨"security.monitorAlertReporting", .machine⟩,
  ⟨"security.metricAlertReporting.systemReportToFleet", .machine⟩,
  ⟨"security.metricAlertReporting.networkReportToFleet", .machine⟩,
  ⟨"security.metricAlertReporting.policy.evaluationIntervalSecs", .machine⟩,
  ⟨"security.metricAlertReporting.policy.sustainedSecs", .machine⟩,
  ⟨"security.metricAlertReporting.policy.cooldownSecs", .machine⟩,
  ⟨"security.metricAlertReporting.policy.resetPct", .machine⟩,
  ⟨"security.metricAlertReporting.policy.cpuThresholdPct", .machine⟩,
  ⟨"security.metricAlertReporting.policy.ramThresholdPct", .machine⟩,
  ⟨"security.metricAlertReporting.policy.uploadThresholdMbS", .machine⟩,
  ⟨"security.metricAlertReporting.policy.downloadThresholdMbS", .machine⟩]

/-- The path of the sign-in presentation. -/
def startupScopePath : String := "app.startSilentlyAtSignIn"

/-- What stands before and after the first full stop. -/
def splitOnce (path : String) : Option (List Char × List Char) :=
  match path.toList.dropWhile (· ≠ '.') with
  | [] => none
  | _ :: rest => some (path.toList.takeWhile (· ≠ '.'), rest)

/-- The owner of the value at a path, or none where its members have several. -/
def scopeForPath (path : String) : Except String (Option SettingsScope) :=
  if path = "app" then .ok none
  else if "app.".toList.isPrefixOf path.toList then
    .ok (some (if path = startupScopePath ∨ path = "app.updateChannel" then .machine else .user))
  else
    match rootSettingsScopeTable.lookup path with
    | some scope => .ok (some scope)
    | none =>
      match splitOnce path with
      | none => .ok none
      | some (first, systemPath) =>
        if first ≠ "ideal".toList ∧ first ≠ "current".toList then
          .error ("Unclassified settings path: " ++ path)
        else
          match systemStateScopeTable.find? (fun rule => rule.path.toList == systemPath) with
          | some rule => .ok (some rule.scope)
          | none =>
            let descendants := systemStateScopeTable.filter
              (fun rule => (systemPath ++ ['.']).isPrefixOf rule.path.toList)
            match (descendants.map (·.scope)).dedup with
            | [] => .error ("Unclassified SystemState leaf: " ++ String.ofList systemPath)
            | [scope] => .ok (some scope)
            | _ => .ok none

/-- The path of a member. -/
def childPath (path key : String) : String :=
  if path = "" then key else path ++ "." ++ key

/-- An object of the members that one partition got, if it got any. -/
def nonemptyObject (ms : List (String × Value)) : Option Value :=
  if ms = [] then none else some (.object ms)

/-- One more member, if there is a value for it. -/
def keep (key : String) (value : Option Value) (ms : List (String × Value)) :
    List (String × Value) :=
  match value with
  | some v => (key, v) :: ms
  | none => ms

mutual

/-- The parts of a value that belong to the machine and to the user. -/
@[grind =]
def split (value : Value) (path : String) : Except String (Option Value × Option Value) := do
  match ← scopeForPath path with
  | some .machine => pure (some value, none)
  | some .user => pure (none, some value)
  | none =>
    match value with
    | .object entries =>
      let (machine, user) ← splitEntries entries path
      pure (nonemptyObject machine, nonemptyObject user)
    | _ => throw ("Unclassified settings object: " ++ path)

@[grind =] def splitEntries : List (String × Value) → String →
    Except String (List (String × Value) × List (String × Value))
  | [], _ => pure ([], [])
  | (key, child) :: entries, path => do
    let (machineChild, userChild) ← split child (childPath path key)
    let (machine, user) ← splitEntries entries path
    pure (keep key machineChild machine, keep key userChild user)

end

/-- The machine partition and the user partition of the settings. -/
def splitSettingsValue (value : Value) : Except String (Value × Value) := do
  let (machine, user) ← splitEntries value.members ""
  pure (.object machine, .object user)

/-- A path on which the split stops: its value belongs to one scope as a whole. -/
inductive ScopedAt (scope : SettingsScope) : String → List String → Prop
  | here {path key : String} : scopeForPath (childPath path key) = .ok (some scope) →
      ScopedAt scope path [key]
  | inside {path key : String} {keys : List String} :
      scopeForPath (childPath path key) = .ok none →
        ScopedAt scope (childPath path key) keys → ScopedAt scope path (key :: keys)

/-- A path of the settings that belongs to the machine, or lies below one that does. -/
def MachineLeaf (keys : List String) : Prop :=
  ∃ owned rest, keys = owned ++ rest ∧ ScopedAt .machine "" owned

section Idempotence

theorem keep_some (key : String) (v : Value) (ms : List (String × Value)) :
    keep key (some v) ms = (key, v) :: ms := rfl

theorem keep_none (key : String) (ms : List (String × Value)) : keep key none ms = ms := rfl

theorem nonemptyObject_eq_some {ms : List (String × Value)} {v : Value}
    (h : nonemptyObject ms = some v) : v = .object ms ∧ nonemptyObject ms = some (.object ms) := by
  unfold nonemptyObject at h ⊢
  split at h
  · exact absurd h (by simp)
  · have hv : Value.object ms = v := Option.some.inj h
    exact ⟨hv.symm, by rw [if_neg ‹_›]⟩

theorem splitEntries_cons_ok {key path : String} {child : Value}
    {entries machine user : List (String × Value)} :
    splitEntries ((key, child) :: entries) path = .ok (machine, user) ↔
      ∃ m u ms us, split child (childPath path key) = .ok (m, u) ∧
        splitEntries entries path = .ok (ms, us) ∧ machine = keep key m ms ∧
          user = keep key u us := by
  rw [splitEntries]
  simp only [bind_ok, pure_ok, Prod.exists, Prod.mk.injEq]
  constructor
  · rintro ⟨m, u, hchild, ms, us, hrest, hm, hu⟩
    exact ⟨m, u, ms, us, hchild, hrest, hm.symm, hu.symm⟩
  · rintro ⟨m, u, ms, us, hchild, hrest, hm, hu⟩
    exact ⟨m, u, hchild, ms, us, hrest, hm.symm, hu.symm⟩

/-- How a value is split: whole by the scope of its path, or else member by member. -/
theorem split_ok {value : Value} {path : String} {m u : Option Value} :
    split value path = .ok (m, u) ↔
      (scopeForPath path = .ok (some .machine) ∧ m = some value ∧ u = none) ∨
      (scopeForPath path = .ok (some .user) ∧ m = none ∧ u = some value) ∨
      (scopeForPath path = .ok none ∧ ∃ entries ms us, value = .object entries ∧
        splitEntries entries path = .ok (ms, us) ∧ m = nonemptyObject ms ∧
          u = nonemptyObject us) := by
  unfold split
  cases hscope : scopeForPath path with
  | error e => simp [bind, Except.bind]
  | ok scope =>
    rcases scope with - | scope
    · cases value with
      | object entries =>
        cases hentries : splitEntries entries path with
        | error e => simp [bind, Except.bind, hentries]
        | ok parts => simp [bind, Except.bind, pure, Except.pure, hentries, eq_comm, Prod.ext_iff]
      | _ => simp [bind, Except.bind, throw, throwThe, MonadExceptOf.throw]
    · cases scope <;> simp [bind, Except.bind, pure, Except.pure, eq_comm]

private theorem splitEntries_user {path : String} {entries ms us : List (String × Value)}
    (ih : ∀ e ∈ entries, ∀ p m u, split e.2 p = .ok (m, some u) → split u p = .ok (none, some u))
    (h : splitEntries entries path = .ok (ms, us)) : splitEntries us path = .ok ([], us) := by
  induction entries generalizing ms us with
  | nil =>
    rw [splitEntries, pure_ok] at h
    have hus : us = [] := (congrArg Prod.snd h).symm
    rw [hus, splitEntries]
    rfl
  | cons e entries ihe =>
    obtain ⟨key, child⟩ := e
    rw [List.forall_mem_cons] at ih
    obtain ⟨m, u, ms', us', hchild, hrest, rfl, rfl⟩ := splitEntries_cons_ok.mp h
    have hus := ihe ih.2 hrest
    cases u with
    | none => exact hus
    | some u =>
      have hu := ih.1 _ m u hchild
      rw [keep_some, splitEntries_cons_ok]
      exact ⟨none, some u, [], us', hu, hus, rfl, rfl⟩

/-- Splitting what belongs to the user again gives it back. -/
theorem split_user {value u : Value} {path : String} {m : Option Value}
    (h : split value path = .ok (m, some u)) : split u path = .ok (none, some u) := by
  induction value generalizing path m u with
  | object entries ih =>
    rw [split_ok] at h
    rcases h with ⟨_, _, hu⟩ | ⟨hscope, _, hu⟩ | ⟨hscope, entries', ms, us, heq, hentries, _, hu⟩
    · exact absurd hu (by simp)
    · exact split_ok.mpr (.inr (.inl ⟨hscope, rfl, rfl⟩))
    · cases heq
      obtain ⟨rfl, hne⟩ := nonemptyObject_eq_some hu.symm
      have hus := splitEntries_user (fun e he p m u h => ih e he h) hentries
      exact split_ok.mpr (.inr (.inr ⟨hscope, us, [], us, rfl, hus, rfl, hne.symm⟩))
  | _ =>
    rw [split_ok] at h
    rcases h with ⟨_, _, hu⟩ | ⟨hscope, _, _⟩ | ⟨_, _, _, _, heq, _⟩
    · exact absurd hu (by simp)
    · exact split_ok.mpr (.inr (.inl ⟨hscope, rfl, rfl⟩))
    · exact absurd heq (by simp)

theorem splitEntries_isOk {path : String} {entries : List (String × Value)} :
    (splitEntries entries path).isOk = true ↔
      ∀ e ∈ entries, (split e.2 (childPath path e.1)).isOk = true := by
  induction entries with
  | nil => simp [splitEntries, pure, Except.pure, Except.isOk, Except.toBool]
  | cons e entries ih =>
    obtain ⟨key, child⟩ := e
    rw [List.forall_mem_cons, ← ih, splitEntries]
    cases split child (childPath path key) with
    | error e => simp [bind, Except.bind, Except.isOk, Except.toBool]
    | ok parts =>
      cases splitEntries entries path <;>
        simp [bind, Except.bind, pure, Except.pure, Except.isOk, Except.toBool]

/-- Whether a value can be split depends on it only where its path has no owner. -/
theorem split_isOk {value : Value} {path : String} :
    (split value path).isOk = true ↔
      (∃ scope, scopeForPath path = .ok (some scope)) ∨
      (scopeForPath path = .ok none ∧ value.isObject = true ∧
        (splitEntries value.members path).isOk = true) := by
  unfold split
  cases hscope : scopeForPath path with
  | error e => simp [bind, Except.bind, Except.isOk, Except.toBool]
  | ok scope =>
    rcases scope with - | scope
    · cases value with
      | object entries =>
        cases hentries : splitEntries entries path <;>
          simp [bind, Except.bind, pure, Except.pure, Except.isOk, Except.toBool, hentries,
            Value.isObject, Value.members]
      | _ =>
        simp [bind, Except.bind, throw, throwThe, MonadExceptOf.throw, Except.isOk, Except.toBool,
          Value.isObject]
    · cases scope <;> simp [bind, Except.bind, pure, Except.pure, Except.isOk, Except.toBool]

/-- Taking a value out of a value that can be split leaves one that can be split. -/
theorem split_takePath {value : Value} {path : String} (keys : List String)
    (h : (split value path).isOk = true) : (split (value.takePath keys).2 path).isOk = true := by
  induction keys generalizing value path with
  | nil => simpa [Value.takePath] using h
  | cons key keys ih =>
    rw [split_isOk] at h
    rcases h with hscope | ⟨hscope, hobject, hentries⟩
    · exact split_isOk.mpr (.inl hscope)
    · cases value with
      | object ms =>
        rw [Value.members, splitEntries_isOk] at hentries
        refine split_isOk.mpr (.inr ⟨hscope, ?_⟩)
        cases keys with
        | nil =>
          refine ⟨rfl, splitEntries_isOk.mpr fun e he => hentries e ?_⟩
          exact List.mem_of_mem_filter he
        | cons key' keys =>
          rw [Value.takePath]
          · cases hw : ms.lookup key with
            | none => exact ⟨rfl, splitEntries_isOk.mpr hentries⟩
            | some w =>
              refine ⟨rfl, splitEntries_isOk.mpr fun e he => ?_⟩
              rcases mem_insert he with rfl | he
              · exact ih (hentries (key, w) (mem_of_lookup hw))
              · exact hentries e he
          · simp
      | _ => simp [Value.isObject] at hobject

theorem splitEntries_takePath {ms : List (String × Value)} (keys : List String)
    (h : (splitEntries ms "").isOk = true) :
    (splitEntries ((Value.object ms).takePath keys).2.members "").isOk = true := by
  have hroot : scopeForPath "" = .ok none := rfl
  have hsplit : (split (.object ms) "").isOk = true := split_isOk.mpr (.inr ⟨hroot, rfl, h⟩)
  rcases split_isOk.mp (split_takePath keys hsplit) with ⟨scope, hscope⟩ | ⟨_, _, hentries⟩
  · rw [hroot] at hscope
    simp at hscope
  · exact hentries

theorem splitSettingsValue_ok {value machine user : Value} :
    splitSettingsValue value = .ok (machine, user) ↔
      ∃ ms us, splitEntries value.members "" = .ok (ms, us) ∧ machine = .object ms ∧
        user = .object us := by
  unfold splitSettingsValue
  simp only [bind_ok, pure_ok, Prod.exists, Prod.mk.injEq]
  constructor
  · rintro ⟨ms, us, h, hm, hu⟩
    exact ⟨ms, us, h, hm.symm, hu.symm⟩
  · rintro ⟨ms, us, h, hm, hu⟩
    exact ⟨ms, us, h, hm.symm, hu.symm⟩

end Idempotence

section Table

/-- A rule whose path is spelt out. -/
def SystemStateScopeRule.spelt (rule : List Char × SettingsScope) : SystemStateScopeRule :=
  ⟨String.ofList rule.1, rule.2⟩

/-- The owner of a path of the system state by the rules that are spelt out. -/
def scopeBySpelt (rules : List (List Char × SettingsScope)) (systemPath : List Char) :
    Except String (Option SettingsScope) :=
  match rules.find? (fun rule => rule.1 == systemPath) with
  | some rule => .ok (some rule.2)
  | none =>
    match ((rules.filter fun rule => (systemPath ++ ['.']).isPrefixOf rule.1).map (·.2)).dedup with
    | [] => .error ("Unclassified SystemState leaf: " ++ String.ofList systemPath)
    | [scope] => .ok (some scope)
    | _ => .ok none

theorem cons_spelt {cs : List Char} {scope : SettingsScope} {rules : List SystemStateScopeRule}
    {spelt : List (List Char × SettingsScope)} (h : rules = spelt.map .spelt) :
    ⟨String.ofList cs, scope⟩ :: rules = ((cs, scope) :: spelt).map .spelt := by
  rw [h]
  rfl

theorem scopeForPath_of_spelt {rules : List (List Char × SettingsScope)} {path : String}
    {state systemPath : List Char} (hrules : systemStateScopeTable = rules.map .spelt)
    (hstate : state = ['i', 'd', 'e', 'a', 'l'] ∨ state = ['c', 'u', 'r', 'r', 'e', 'n', 't'])
    (hpath : path.toList = state ++ '.' :: systemPath) :
    scopeForPath path = scopeBySpelt rules systemPath := by
  have happ : path ≠ "app" := by
    intro heq
    rw [heq, show "app".toList = ['a', 'p', 'p'] from String.toList_ofList] at hpath
    rcases hstate with rfl | rfl <;> simp at hpath
  have hstart : "app.".toList.isPrefixOf path.toList = false := by
    rw [show "app.".toList = ['a', 'p', 'p', '.'] from String.toList_ofList, hpath]
    rcases hstate with rfl | rfl <;> rfl
  have hroot : rootSettingsScopeTable.lookup path = none := by
    have hne : ∀ name : String, '.' ∉ name.toList → (path == name) = false := by
      intro name hname
      apply beq_eq_false_iff_ne.mpr
      intro heq
      rw [← heq, hpath] at hname
      exact absurd hname (by simp)
    simp [rootSettingsScopeTable, List.lookup_cons, hne]
  have hsplit : splitOnce path = some (state, systemPath) := by
    unfold splitOnce
    rw [hpath]
    rcases hstate with rfl | rfl <;> rfl
  have hfirst : ¬ (state ≠ "ideal".toList ∧ state ≠ "current".toList) := by
    rw [show "ideal".toList = ['i', 'd', 'e', 'a', 'l'] from String.toList_ofList,
      show "current".toList = ['c', 'u', 'r', 'r', 'e', 'n', 't'] from String.toList_ofList]
    rcases hstate with rfl | rfl <;> simp
  have hfind : systemStateScopeTable.find? (fun rule => rule.path.toList == systemPath) =
      (rules.find? fun rule => rule.1 == systemPath).map .spelt := by
    rw [hrules, List.find?_map]
    congr 2
    funext rule
    exact congrArg (· == systemPath) String.toList_ofList
  have hbelow : (systemStateScopeTable.filter fun rule =>
        (systemPath ++ ['.']).isPrefixOf rule.path.toList).map (·.scope) =
      (rules.filter fun rule => (systemPath ++ ['.']).isPrefixOf rule.1).map (·.2) := by
    have hspelt : (fun rule => (systemPath ++ ['.']).isPrefixOf rule.path.toList) ∘
        SystemStateScopeRule.spelt = fun rule => (systemPath ++ ['.']).isPrefixOf rule.1 := by
      funext rule
      exact congrArg (systemPath ++ ['.']).isPrefixOf String.toList_ofList
    rw [hrules, List.filter_map, List.map_map, hspelt]
    rfl
  unfold scopeForPath scopeBySpelt
  rw [if_neg happ, if_neg (by rw [hstart]; simp), hroot, hsplit]
  dsimp only
  rw [if_neg hfirst, hfind, hbelow]
  cases rules.find? fun rule => rule.1 == systemPath <;> rfl

/-- The privacy settings have several owners, and the distress phrases are the user's. -/
theorem scopeForPath_privacy :
    (scopeForPath "ideal.privacy" = .ok none ∧ scopeForPath "current.privacy" = .ok none) ∧
      scopeForPath "ideal.privacy.distressPhrases" = .ok (some .user) ∧
      scopeForPath "current.privacy.distressPhrases" = .ok (some .user) := by
  have hspelt : ∃ rules : List (List Char × SettingsScope),
      systemStateScopeTable = rules.map .spelt ∧
        scopeBySpelt rules ['p', 'r', 'i', 'v', 'a', 'c', 'y'] = .ok none ∧
        scopeBySpelt rules (['p', 'r', 'i', 'v', 'a', 'c', 'y', '.', 'd', 'i', 's', 't', 'r', 'e',
          's', 's', 'P', 'h', 'r', 'a', 's', 'e', 's']) = .ok (some .user) := by
    apply Exists.intro
    apply And.intro
    case left =>
      dsimp only [systemStateScopeTable]
      repeat apply cons_spelt
      exact List.map_nil.symm
    case right => decide +kernel
  obtain ⟨rules, hrules, hprivacy, hphrases⟩ := hspelt
  refine ⟨⟨?_, ?_⟩, ?_, ?_⟩
  · exact (scopeForPath_of_spelt hrules (.inl rfl) String.toList_ofList).trans hprivacy
  · exact (scopeForPath_of_spelt hrules (.inr rfl) String.toList_ofList).trans hprivacy
  · exact (scopeForPath_of_spelt hrules (.inl rfl) String.toList_ofList).trans hphrases
  · exact (scopeForPath_of_spelt hrules (.inr rfl) String.toList_ofList).trans hphrases

end Table

end Settings
