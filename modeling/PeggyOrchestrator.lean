import PeggyOrchestrator.Types
import PeggyOrchestrator.Io
import PeggyOrchestrator.PeggyUtils
import PeggyOrchestrator.EventWatcher
import PeggyOrchestrator.WatcherRun
import PeggyOrchestrator.BatchRelaying
import PeggyOrchestrator.ValsetUpdate
import PeggyOrchestrator.JsonLogger
import PeggyOrchestrator.LoggedWatcher
import PeggyOrchestrator.LoggedBatchRelaying
import PeggyOrchestrator.LoggedValsetUpdate
import PeggyOrchestrator.Process
