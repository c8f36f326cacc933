import FloorHeating.Lib.Transition
import FloorHeating.Lib.PastTime
import FloorHeating.ControlLogic
import FloorHeating.ControlRuns
import FloorHeating.SensorFailSafe
import FloorHeating.Settings
import FloorHeating.Events
import FloorHeating.History
import FloorHeating.Control
import FloorHeating.Sections
import FloorHeating.Lib.Mutex
import FloorHeating.Firmware
import FloorHeating.Atomicity
import FloorHeating.AutomaticControl
import FloorHeating.Api
import FloorHeating.Maintenance
import FloorHeating.Relay
import FloorHeating.Overheat
import FloorHeating.ManualOverride
import FloorHeating.ThresholdChange
import FloorHeating.Thresholds
import FloorHeating.PartialUpdates
import FloorHeating.EventLog
import FloorHeating.Attribution
import FloorHeating.Accounting
import FloorHeating.ClockOrder
import FloorHeating.Persistence
import FloorHeating.HistoryDocument
import FloorHeating.Lib.Periodic
import FloorHeating.TimeAxis
import FloorHeating.RepeatedDecision
import FloorHeating.Lib.Tenths
import FloorHeating.Notifications
import FloorHeating.TempSensor
import FloorHeating.Lib.DottedQuad
import FloorHeating.CommandDetail
import FloorHeating.Lib.Restart
import FloorHeating.PowerCycles
import FloorHeating.Lib.Fairness
import FloorHeating.Progress
import FloorHeating.Status
import FloorHeating.Health
import FloorHeating.Server
import FloorHeating.Requests
import FloorHeating.Replies
import FloorHeating.StatusReplies
import FloorHeating.LogicCalls
import FloorHeating.WiredSensor
import FloorHeating.App
import FloorHeating.AppControls
import FloorHeating.Lib.Spans
import FloorHeating.Chart
import FloorHeating.Polling
import FloorHeating.Alerts
import FloorHeating.Thermostat
import FloorHeating.Recurrence
import FloorHeating.Response
import FloorHeating.SensorRecovery
