import AVCapture.Lib.Transition
import AVCapture.Utils.CircularBuffer
import AVCapture.Core.SegmentWriter
import AVCapture.Core.RollingSegments
import AVCapture.Core.SegmentThreads
import AVCapture.Core.SegmentExports
import AVCapture.Core.FrameConservation
import AVCapture.Core.SegmentStop
import AVCapture.Api.Router
import AVCapture.Encoding.VideoEncoderQueue
import AVCapture.Platform.ScreenRecorderBase
import AVCapture.Platform.ScreenRecorderWindows
import AVCapture.Platform.SessionLock
import AVCapture.Platform.DeviceLoss
import AVCapture.Lib.Rounding
import AVCapture.Settings
import AVCapture.Core.RecordingConfig
import AVCapture.Core.MediaRecorder
import AVCapture.Core.SegmentMerge
import AVCapture.Core.SegmentTimestamps
import AVCapture.Lib.Raster
import AVCapture.Platform.FrameRotation
import AVCapture.Platform.WindowsFrames
import AVCapture.Encoding.AudioMixer
import AVCapture.Platform.LinuxFrames
import AVCapture.Core.RecorderLifecycle
import AVCapture.Lib.Calendar
import AVCapture.Core.SaveRequests
import AVCapture.Lib.FlatJson
import AVCapture.Tray.ApiClient
import AVCapture.Lib.BoundedLog
import AVCapture.Utils.BufferLog
import AVCapture.Lib.Pacing
import AVCapture.Platform.CapturePacing
import AVCapture.Encoding.AudioStreams
import AVCapture.Encoding.MixOrder
import AVCapture.Core.AudioCapturer
import AVCapture.Core.ConcatList
import AVCapture.Encoding.MixerThread
import AVCapture.Lib.Overlay
import AVCapture.Settings.Merge
import AVCapture.Utils.LogArchive
import AVCapture.Lib.Quantity
import AVCapture.Settings.ByteSize
import AVCapture.Lib.Narrowing
import AVCapture.Settings.LogSize
import AVCapture.Lib.Widgets
import AVCapture.Settings.Dump
import AVCapture.Settings.Lookups
import AVCapture.Tray.SettingsDialog
import AVCapture.Tray.TrayIcon
import AVCapture.Api.Shutdown
import AVCapture.Lib.Scanning
import AVCapture.Utils.PrettyFunction
import AVCapture.Utils.QueueRefinement
import AVCapture.Lib.Ownership
import AVCapture.Core.SegmentHandles
import AVCapture.Encoding.VideoEncoderHandles
import AVCapture.Encoding.AudioEncoderHandles
import AVCapture.Lib.Composition
import AVCapture.Platform.RecorderQueue
import AVCapture.Utils.QueueDestructor
import AVCapture.Encoding.MixerSessions
import AVCapture.Platform.SessionMonitor
import AVCapture.Lib.CommandLine
import AVCapture.Core.ExportCommand
import AVCapture.Core.ExportedFrames
