import Datenbereitstellung.AbortFlag
import Datenbereitstellung.RecordNumbering
import Datenbereitstellung.FlattenAgreement
import Datenbereitstellung.OneProject
import Datenbereitstellung.Release
import Datenbereitstellung.BlockDelivery
import Datenbereitstellung.AnnouncedBlock
import Datenbereitstellung.UnreadBlock
import Datenbereitstellung.PlcArrays
import Datenbereitstellung.SettingsTakeover
import Datenbereitstellung.PreviewGeneration
import Datenbereitstellung.BlockPartition
import Datenbereitstellung.SettingsPersistence
import Datenbereitstellung.PreviewJobs
import Datenbereitstellung.PreviewPaths
import Datenbereitstellung.SweepDrawing
import Datenbereitstellung.Completion
import Datenbereitstellung.TriggerRequests
import Datenbereitstellung.ProjectAnswer
import Datenbereitstellung.LineTokens
import Datenbereitstellung.WholeNumbers
import Datenbereitstellung.SuccessFlags
import Datenbereitstellung.PictureErrors
import Datenbereitstellung.StopRequests
import Datenbereitstellung.Watchdog
import Datenbereitstellung.PreviewFolder
import Datenbereitstellung.KeptWords
import Datenbereitstellung.FlattenThresholds
import Datenbereitstellung.DrawingLoops
import Datenbereitstellung.LiveMarks
import Datenbereitstellung.ArcEnds
import Datenbereitstellung.CanvasFit
import Datenbereitstellung.BrokenFiles
import Datenbereitstellung.DroppedProjects
import Datenbereitstellung.OpcUaArrays
import Datenbereitstellung.ArrayWindows
import Datenbereitstellung.WindowBounds
import Datenbereitstellung.InfoTexts
import Datenbereitstellung.LiveImage
import Datenbereitstellung.OpenedProjects
import Datenbereitstellung.SettingsPage
import Datenbereitstellung.SpsSessions
import Datenbereitstellung.NodeDiagnostics
import Datenbereitstellung.PreviewPage
import Datenbereitstellung.TransferredProgram
import Datenbereitstellung.WebServer
import Datenbereitstellung.DrawingAccuracy
